import ApiGate.Judge.Session
import ApiGate.Proofs.ArrowGrammar
import ApiGate.Proofs.Conflicts

/-!
# Runs of a session

A session sees its rules in batches: making judges takes what was added since judges were made
before, and the builders start anew. This module says, for runs of any length, what the answers
have to do with these batches.

* `Pending past batch` holds of the steps that the next making of judges looks back on, and
  `Used past batch` of those that the last one did. A run has one pending batch, and one used batch
  as soon as judges were to be made.
* Between two makings a step gives its rules to both builders and changes nothing else
  (`step_of_ne_build`), so at any time both hold the rules of the pending batch.
* The judges at hand are those that can be made of the used batch, so they answer by its rules. What
  was added before or after it, or could not be read, has no influence on any answer
  (`Session.answers_by_batch`).
-/

namespace ApiGate

namespace Session

/-! ## One step -/

@[simp] theorem foldl_register (session : Session) (rules : List Rule) :
    rules.foldl register session =
      ⟨session.forIndex ++ rules, session.forScan ++ rules, session.judges⟩ := by
  induction rules generalizing session with
  | nil => simp
  | cons r rest ih => simp [ih, register]

/-- The rules that a step adds: those of a source that can be read. -/
def Step.added : Step → List Rule
  | .add source => source.rules.toOption.getD []
  | _ => []

/-- The rules that steps add, in order. -/
def collected (steps : List Step) : List Rule :=
  steps.flatMap Step.added

/-- Any step but the making of judges only gives its rules to the builders. -/
theorem step_of_ne_build (session : Session) {step : Step} (h : step ≠ .build) :
    (session.step step).1 = step.added.foldl register session := by
  cases step with
  | add source =>
    simp only [Session.step, Step.added]
    cases source.rules with
    | error e => rfl
    | ok rules => rfl
  | build => exact absurd rfl h
  | ask q x default =>
    simp only [Session.step, Step.added, List.foldl_nil]
    split
    · rfl
    · rfl
    · split <;> rfl
  | report usages =>
    simp only [Session.step, Step.added, List.foldl_nil]
    split <;> rfl

/-- After judges were to be made the builders are empty, and judges are there if they were made. -/
@[simp] theorem step_build (session : Session) :
    (session.step .build).1 = ⟨[], [], session.make.toOption⟩ := by
  simp only [Session.step]
  cases session.make with
  | error c => rfl
  | ok judges => rfl

/-! ## Runs -/

@[simp] theorem after_append (session : Session) (past future : List Step) :
    session.after (past ++ future) = (session.after past).after future :=
  List.foldl_append

@[simp] theorem after_cons (session : Session) (step : Step) (future : List Step) :
    session.after (step :: future) = (session.step step).1.after future :=
  rfl

/-- A run in which no judges are to be made only adds to the builders. -/
theorem after_of_build_not_mem (session : Session) {steps : List Step} (h : .build ∉ steps) :
    session.after steps = (collected steps).foldl register session := by
  induction steps generalizing session with
  | nil => rfl
  | cons step rest ih =>
    rw [List.mem_cons, not_or] at h
    obtain ⟨hstep, hrest⟩ := h
    rw [after_cons, step_of_ne_build session (Ne.symm hstep), ih _ hrest, collected, collected,
      List.flatMap_cons, List.foldl_append]

theorem answers_append (session : Session) (past future : List Step) :
    session.answers (past ++ future) =
      session.answers past ++ (session.after past).answers future := by
  induction past generalizing session with
  | nil => rfl
  | cons step rest ih =>
    simp [answers, ih]

@[simp] theorem length_answers (session : Session) (steps : List Step) :
    (session.answers steps).length = steps.length := by
  induction steps generalizing session with
  | nil => rfl
  | cons step rest ih => simp [answers, ih]

theorem answers_append_cons (session : Session) (past : List Step) (step : Step)
    (future : List Step) :
    session.answers (past ++ step :: future) =
      session.answers past ++ ((session.after past).step step).2 ::
        ((session.after past).step step).1.answers future := by
  rw [answers_append, answers]

/-- A step is answered out of the session that the steps before it leave. -/
theorem answers_getElem? (session : Session) (past : List Step) (step : Step)
    (future : List Step) :
    (session.answers (past ++ step :: future))[past.length]? =
      some ((session.after past).step step).2 := by
  rw [answers_append_cons, ← length_answers session past,
    List.getElem?_append_right (Nat.le_refl _), Nat.sub_self, List.getElem?_cons_zero]

/-! ## Batches -/

/-- The steps since judges were to be made last, or all if they never were. -/
def Pending (past batch : List Step) : Prop :=
  .build ∉ batch ∧ (past = batch ∨ ∃ earlier, past = earlier ++ .build :: batch)

/-- The steps before judges were to be made last, back to the time before that. -/
def Used (past batch : List Step) : Prop :=
  ∃ earlier later, past = earlier ++ .build :: later ∧ .build ∉ later ∧ Pending earlier batch

/-- A run in which judges were to be made has a last time at which they were. -/
theorem exists_last_build {past : List Step} (h : .build ∈ past) :
    ∃ earlier later, past = earlier ++ .build :: later ∧ .build ∉ later := by
  induction past with
  | nil => cases h
  | cons step rest ih =>
    by_cases hrest : .build ∈ rest
    · obtain ⟨earlier, later, rfl, hlater⟩ := ih hrest
      exact ⟨step :: earlier, later, rfl, hlater⟩
    · obtain rfl : Step.build = step := (List.mem_cons.1 h).resolve_right hrest
      exact ⟨[], rest, rfl, hrest⟩

theorem exists_pending (past : List Step) : ∃ batch, Pending past batch := by
  by_cases h : .build ∈ past
  · obtain ⟨earlier, later, hpast, hlater⟩ := exists_last_build h
    exact ⟨later, hlater, Or.inr ⟨earlier, hpast⟩⟩
  · exact ⟨past, h, Or.inl rfl⟩

theorem exists_used_iff {past : List Step} : (∃ batch, Used past batch) ↔ .build ∈ past := by
  refine ⟨fun h => ?_, fun h => ?_⟩
  · obtain ⟨_, earlier, later, rfl, _⟩ := h
    exact List.mem_append_right _ List.mem_cons_self
  · obtain ⟨earlier, later, hpast, hlater⟩ := exists_last_build h
    obtain ⟨batch, hbatch⟩ := exists_pending earlier
    exact ⟨batch, earlier, later, hpast, hlater, hbatch⟩

/-- Nothing stands between two places if judges were to be made at the first for the last time. -/
theorem eq_nil_of_append_build {between later later' : List Step}
    (h : .build :: later = between ++ .build :: later') (hlater : .build ∉ later) :
    between = [] ∧ later = later' := by
  cases between with
  | nil => exact ⟨rfl, (List.cons.inj h).2⟩
  | cons step between =>
    have hmem : .build ∈ later := by
      rw [(List.cons.inj h).2]
      exact List.mem_append_right _ List.mem_cons_self
    exact absurd hmem hlater

theorem eq_of_append_build {earlier earlier' later later' : List Step}
    (h : earlier ++ .build :: later = earlier' ++ .build :: later') (hlater : .build ∉ later)
    (hlater' : .build ∉ later') : earlier = earlier' ∧ later = later' := by
  rcases List.append_eq_append_iff.1 h with ⟨between, rfl, hrest⟩ | ⟨between, rfl, hrest⟩
  · obtain ⟨rfl, rfl⟩ := eq_nil_of_append_build hrest hlater
    exact ⟨(List.append_nil _).symm, rfl⟩
  · obtain ⟨rfl, rfl⟩ := eq_nil_of_append_build hrest hlater'
    exact ⟨List.append_nil _, rfl⟩

theorem Pending.unique {past batch batch' : List Step} (h : Pending past batch)
    (h' : Pending past batch') : batch = batch' := by
  obtain ⟨hbatch, rfl | ⟨earlier, rfl⟩⟩ := h
  · obtain ⟨_, hpast | ⟨earlier', rfl⟩⟩ := h'
    · exact hpast
    · exact absurd (List.mem_append_right _ List.mem_cons_self) hbatch
  · obtain ⟨hbatch', rfl | ⟨earlier', hpast⟩⟩ := h'
    · exact absurd (List.mem_append_right _ List.mem_cons_self) hbatch'
    · exact (eq_of_append_build hpast hbatch hbatch').2

theorem Used.unique {past batch batch' : List Step} (h : Used past batch)
    (h' : Used past batch') : batch = batch' := by
  obtain ⟨earlier, later, rfl, hlater, hbatch⟩ := h
  obtain ⟨earlier', later', hpast, hlater', hbatch'⟩ := h'
  obtain ⟨rfl, rfl⟩ := eq_of_append_build hpast hlater hlater'
  exact hbatch.unique hbatch'

/-- Both builders hold the rules of the pending batch. -/
theorem builders_of_pending {past batch : List Step} (h : Pending past batch) :
    (start.after past).forIndex = collected batch ∧
      (start.after past).forScan = collected batch := by
  obtain ⟨hbatch, rfl | ⟨earlier, rfl⟩⟩ := h
  · rw [after_of_build_not_mem start hbatch]
    simp [start]
  · simp [after_of_build_not_mem _ hbatch]

/-- The judges at hand are what was made of the used batch. -/
theorem judges_of_used {past batch : List Step} (h : Used past batch) :
    (start.after past).judges =
      (make ⟨collected batch, collected batch, none⟩).toOption := by
  obtain ⟨earlier, later, rfl, hlater, hbatch⟩ := h
  obtain ⟨hindex, hscan⟩ := builders_of_pending hbatch
  simp [after_of_build_not_mem _ hlater, make, hindex, hscan]

theorem judges_of_build_not_mem {past : List Step} (h : .build ∉ past) :
    (start.after past).judges = none := by
  rw [after_of_build_not_mem start h]
  simp [start]

end Session

/-! ## Judges of a batch -/

/-- `v` is what rules say about the use of `x` by `q`. -/
def Settles (rules : List Rule) (q x : String) : Option Severity → Prop
  | some v => Decides rules q x v
  | none => Undecided rules q x

/-- Both judges are made of the rules and answer by them. -/
structure Judges.Know (judges : Judges) (rules : List Rule) : Prop where
  count : judges.index.ruleCount = rules.length
  kept : judges.scan.rules = rules
  agree (q x : String) : judges.index.judge q x = judges.scan.judge q x
  settles (q x : String) : Settles rules q x (judges.index.judge q x)

namespace Session

/-- Builders with the same rules make judges that know them, or report the first clash. -/
theorem make_spec (rules : List Rule) (judges : Option Judges) :
    (Consistent rules ∧ ∃ made, make ⟨rules, rules, judges⟩ = .ok made ∧ made.Know rules) ∨
    ∃ c i j, make ⟨rules, rules, judges⟩ = .error c ∧ c.IsFirst rules i j := by
  have hspec := Index.ofRules_spec rules
  cases hc : Scan.clash? [] rules with
  | none =>
    rw [hc] at hspec
    obtain ⟨index, hindex, hholds⟩ := hspec
    have hcons : Consistent rules := (Scan.clash?_eq_none_iff.1 hc).2
    have hscan : Scan.ofRules rules = .ok ⟨rules⟩ := Scan.ofRules_eq_ok_iff.2 ⟨hcons, rfl⟩
    have hfollows := hholds.follows hcons
    refine Or.inl ⟨hcons, ⟨index, ⟨rules⟩⟩, ?_, hholds.count, rfl,
      hfollows.eq (Scan.follows rules) hcons, hfollows⟩
    simp only [make, hindex, hscan]
    rfl
  | some c =>
    rw [hc] at hspec
    obtain ⟨i, j, hfirst⟩ := Scan.clash?_eq_some_iff.1 hc
    refine Or.inr ⟨c, i, j, ?_, hfirst⟩
    simp only [make, hspec]
    rfl

/-! ## Answers -/

/-- The answer to a step that stands between others. -/
def answerTo (past : List Step) (step : Step) (future : List Step) : Option Answer :=
  (start.answers (past ++ step :: future))[past.length]?

/-- The answer where the judges give `v`. A default stands in for none, and has to be a severity. -/
def Answer.ofVerdict (v : Option Severity) : Option String → Answer
  | none => .judged v v
  | some text =>
    match Severity.ofText? text with
    | some s => .judged (v.or (some s)) (v.or (some s))
    | none => .badDefault text

/-- What a question is answered by the batch that was used last. -/
inductive Answered (past : List Step) (q x : String) (default : Option String) : Answer → Prop
  /-- No judges were to be made so far. -/
  | unmade : .build ∉ past → Answered past q x default .noJudges
  /-- No judges could be made of the batch. -/
  | failed {batch : List Step} : Used past batch → ¬Consistent (collected batch) →
      Answered past q x default .noJudges
  | judged {batch : List Step} {v : Option Severity} : Used past batch →
      Consistent (collected batch) → Settles (collected batch) q x v →
      Answered past q x default (.ofVerdict v default)

/-- What making judges of the pending batch is answered. -/
inductive Made (past : List Step) : Answer → Prop
  | built {batch : List Step} : Pending past batch → Consistent (collected batch) →
      Made past (.built (collected batch).length (collected batch))
  | clashed {batch : List Step} {c : Conflict} {i j : Nat} : Pending past batch →
      c.IsFirst (collected batch) i j → Made past (.clashed c)

theorem ask_of_know {session : Session} {judges : Judges} {rules : List Rule}
    (hjudges : session.judges = some judges) (hknow : judges.Know rules) (q x : String)
    (default : Option String) :
    (session.step (.ask q x default)).2 =
      .ofVerdict (judges.index.judge q x) default := by
  cases default with
  | none => simp only [Session.step, hjudges, ask, Answer.ofVerdict, hknow.agree, Option.or_none]
  | some text =>
    simp only [Session.step, hjudges, ask, Answer.ofVerdict, hknow.agree]
    cases Severity.ofText? text <;> rfl

theorem ask_of_none {session : Session} (hjudges : session.judges = none) (q x : String)
    (default : Option String) : (session.step (.ask q x default)).2 = .noJudges := by
  simp only [Session.step, hjudges]

/-- Of a session, an answer to a question only depends on the judges. -/
theorem ask_congr {session other : Session} (h : session.judges = other.judges) (q x : String)
    (default : Option String) :
    (session.step (.ask q x default)).2 = (other.step (.ask q x default)).2 := by
  simp only [Session.step, h]
  cases other.judges with
  | none => rfl
  | some judges =>
    cases default with
    | none => rfl
    | some text =>
      simp only
      cases Severity.ofText? text <;> rfl

theorem answered_after (past : List Step) (q x : String) (default : Option String) :
    Answered past q x default ((start.after past).step (.ask q x default)).2 := by
  by_cases hbuild : .build ∈ past
  · obtain ⟨batch, hused⟩ := exists_used_iff.2 hbuild
    have hjudges := judges_of_used hused
    rcases make_spec (collected batch) none with
      ⟨hcons, made, hmade, hknow⟩ | ⟨c, i, j, hmade, hfirst⟩
    · rw [hmade] at hjudges
      rw [ask_of_know hjudges hknow]
      exact .judged hused hcons (hknow.settles q x)
    · rw [hmade] at hjudges
      rw [ask_of_none hjudges]
      exact .failed hused fun hcons => consistent_iff_not_repeats.1 hcons i j hfirst.repeats
  · rw [ask_of_none (judges_of_build_not_mem hbuild)]
    exact .unmade hbuild

theorem made_after (past : List Step) : Made past ((start.after past).step .build).2 := by
  obtain ⟨batch, hpending⟩ := exists_pending past
  obtain ⟨hindex, hscan⟩ := builders_of_pending hpending
  have hmake : (start.after past).make =
      make ⟨collected batch, collected batch, (start.after past).judges⟩ := by
    rw [make, make, hindex, hscan]
  rcases make_spec (collected batch) (start.after past).judges with
    ⟨hcons, made, hmade, hknow⟩ | ⟨c, i, j, hmade, hfirst⟩
  · simp only [Session.step, hmake, hmade, hknow.count, hknow.kept]
    exact .built hpending hcons
  · simp only [Session.step, hmake, hmade]
    exact .clashed hpending hfirst

/-- A source that cannot be read leaves no trace but its own answer. -/
theorem answers_eraseIdx_of_error {source : RuleSource} {e : RuleError}
    (h : source.rules = .error e) (past future : List Step) :
    (start.answers (past ++ .add source :: future)).eraseIdx past.length =
      start.answers (past ++ future) := by
  have hsame : ((start.after past).step (.add source)).1 = start.after past := by
    simp only [Session.step, h]
  rw [answers_append_cons, answers_append, hsame, ← length_answers start past,
    List.eraseIdx_append_of_length_le (Nat.le_refl _), Nat.sub_self, List.eraseIdx_zero,
    List.tail_cons]

/-- An arrow rule adds none of its rules if one of its dependencies is not a name. -/
theorem error_of_bad_dependency {text : String} {d xs w x : List Char}
    (hcut : Rule.cutPieces (Text.trim text.toList) = .ok (d, xs, w)) (hx : x ∈ xs.splitOn ',')
    (hbad : Name.defect? (String.ofList (Text.trim x)) ≠ none) :
    ∃ e, (RuleSource.arrow text).rules = .error e := by
  cases hread : (RuleSource.arrow text).rules with
  | error e => exact ⟨e, rfl⟩
  | ok rules =>
    obtain ⟨d', xs', w', s, hcut', _, hmap, _⟩ := Rule.parseArrow_eq_ok_iff.1 hread
    cases hcut.symm.trans hcut'
    have hpiece : Text.trim x ∈ rules.map (·.dependency.text.toList) := by
      rw [hmap]
      exact List.mem_map_of_mem hx
    obtain ⟨r, _, hr⟩ := List.mem_map.1 hpiece
    rw [← hr, String.ofList_toList] at hbad
    exact absurd r.dependency.sound hbad

/-- **A session answers by its batches.** Whatever came before and comes after,

* a question is answered by the most specific rule of the batch that was used last, and there are no
  judges if there is no such batch or none could be made of it;
* making judges succeeds iff the pending batch is consistent, and uses up that batch;
* questions are answered alike in any two runs whose used batches have the same rules;
* a source that cannot be read changes no other answer of the run, and such is an arrow rule of
  which one dependency is not a name. -/
theorem answers_by_batch (past future : List Step) :
    (∀ q x default, ∃ answer, answerTo past (.ask q x default) future = some answer ∧
      Answered past q x default answer) ∧
    (∃ answer, answerTo past .build future = some answer ∧ Made past answer) ∧
    (∀ past' future' batch batch', Used past batch → Used past' batch' →
      collected batch = collected batch' → ∀ q x default,
        answerTo past (.ask q x default) future = answerTo past' (.ask q x default) future') ∧
    (∀ source e, source.rules = .error e →
      (start.answers (past ++ .add source :: future)).eraseIdx past.length =
        start.answers (past ++ future)) ∧
    ∀ text d xs w x, Rule.cutPieces (Text.trim text.toList) = .ok (d, xs, w) →
      x ∈ xs.splitOn ',' → Name.defect? (String.ofList (Text.trim x)) ≠ none →
        ∃ e, (RuleSource.arrow text).rules = .error e := by
  refine ⟨fun q x default => ⟨_, answers_getElem? .., answered_after past q x default⟩,
    ⟨_, answers_getElem? .., made_after past⟩, ?_,
    fun source e h => answers_eraseIdx_of_error h past future,
    fun text d xs w x => error_of_bad_dependency⟩
  intro past' future' batch batch' hused hused' hsame q x default
  have hjudges : (start.after past).judges = (start.after past').judges := by
    rw [judges_of_used hused, judges_of_used hused', hsame]
  rw [answerTo, answerTo, answers_getElem?, answers_getElem?, ask_congr hjudges]

/-- Judges are made of one rule, and another comes too late for them. -/
def lateRun : List Step :=
  [.add (.arrow "net.bar -> jdk.Unsafe: WARN"), .build, .add (.fields "net.bar" "jdk.Unsafe" .fail)]

/-- The late rule has no influence, and neither has a list of which one dependency is empty. -/
theorem answers_by_batch_late :
    Answered lateRun "net.bar.Baz" "jdk.Unsafe" none (.judged (some .warn) (some .warn)) ∧
    (∃ e, (RuleSource.arrow "net -> jdk.Signal, : FAIL").rules = .error e ∧
      (start.answers (lateRun ++ [.add (.arrow "net -> jdk.Signal, : FAIL"), .build])).eraseIdx 3 =
        start.answers (lateRun ++ [.build])) := by
  have hjudged : answerTo lateRun (.ask "net.bar.Baz" "jdk.Unsafe" none) [.build] =
      some (.judged (some .warn) (some .warn)) := by rfl
  obtain ⟨hask, _, _, herase, hbad⟩ := answers_by_batch lateRun [.build]
  obtain ⟨answer, hanswer, hby⟩ := hask "net.bar.Baz" "jdk.Unsafe" none
  cases hjudged.symm.trans hanswer
  obtain ⟨e, he⟩ := hbad "net -> jdk.Signal, : FAIL" "net ".toList " jdk.Signal, ".toList
    " FAIL".toList " ".toList (by rfl) (by decide +kernel) (by decide +kernel)
  exact ⟨hby, e, he, herase _ e he⟩

end Session

end ApiGate
