import ApiGate.Proofs.Blocks
import ApiGate.Proofs.Conflicts
import ApiGate.Proofs.Guarantees

/-!
# Which fault is reported

Any number of things may be wrong with a configuration, and loading reports one of them.
`Config.Faulty` says which, without loading anything: the default severity comes before the entries,
these before the arrow rules, of each the first that is wrong, and a conflict only if nothing else
is. In an entry the severity comes before the dependent and the dependent before the dependency.

What loading reports is this fault and no other (`load_reports_first`). The argument follows the
steps of loading. A block of steps fails with the first of them that does, and the entries and the
arrow rules are each walked through with a running number. `walk_eq_error_iff` is about both walks:
they stop where a step fails for the first time, and the number is the place of what it failed on.

A fault is known by its context, which is a text. No two places have the same one.
-/

namespace ApiGate

open Text

/-! ## Contexts -/

namespace Place

/-- The characters by which the three kinds of context differ. -/
def opening : Place → List Char
  | .defaultSeverity => ['d', 'e', 'f']
  | .dependencyRule _ => ['d', 'e', 'p']
  | .arrowRule _ => ['a', 'r', 'r']

theorem take_text (place : Place) : place.text.toList.take 3 = place.opening := by
  cases place with
  | defaultSeverity => rfl
  | dependencyRule i =>
    have htext : (dependencyRule i).text = "dependency-rules[" ++ toString i ++ "]" := rfl
    rw [htext, String.toList_append, String.toList_append, List.append_assoc]
    rfl
  | arrowRule i =>
    have htext : (arrowRule i).text = "arrow-rules[" ++ toString i ++ "]" := rfl
    rw [htext, String.toList_append, String.toList_append, List.append_assoc]
    rfl

/-- The digits of a number are read back between the brackets. -/
theorem index_inj {front : String} {i j : Nat}
    (h : front ++ toString i ++ "]" = front ++ toString j ++ "]") : i = j := by
  rw [← String.toList_inj] at h
  simp only [String.toList_append, List.append_assoc, List.append_cancel_left_eq,
    List.append_cancel_right_eq, Nat.toString_eq_ofList_toDigits, String.toList_ofList] at h
  rw [← Nat.ofDigitChars_ten_toDigits (n := i), h, Nat.ofDigitChars_ten_toDigits]

/-- **A context names one place.** -/
theorem text_inj {place place' : Place} (h : place.text = place'.text) : place = place' := by
  have hopening : place.opening = place'.opening := by rw [← take_text, ← take_text, h]
  cases place with
  | defaultSeverity =>
    cases place' with
    | defaultSeverity => rfl
    | dependencyRule j => cases hopening
    | arrowRule j => cases hopening
  | dependencyRule i =>
    cases place' with
    | defaultSeverity => cases hopening
    | dependencyRule j => rw [index_inj h]
    | arrowRule j => cases hopening
  | arrowRule i =>
    cases place' with
    | defaultSeverity => cases hopening
    | dependencyRule j => cases hopening
    | arrowRule j => rw [index_inj h]

end Place

/-- An error says that `source` is wrong where `context` tells. -/
def LoadError.Reports (e : LoadError) (context : String) (source : RuleError) : Prop :=
  ∃ place : Place, e = .badRule place source ∧ place.text = context

theorem LoadError.reports_text_iff {e : LoadError} {place : Place} {source : RuleError} :
    e.Reports place.text source ↔ e = .badRule place source := by
  refine ⟨fun h => ?_, fun h => ⟨place, h, rfl⟩⟩
  obtain ⟨place', he, htext⟩ := h
  rw [he, Place.text_inj htext]

/-! ## Faults -/

/-- What is wrong with an entry. An absent name counts as an empty one. -/
inductive RuleEntry.Fault (entry : RuleEntry) : RuleError → Prop where
  | severity (unknown : Severity.ofText? entry.severity = none) :
      Fault entry (.unknownSeverity entry.severity)
  | dependent {s : Severity} {d : Defect} (severity : Severity.ofText? entry.severity = some s)
      (bad : Name.defect? (entry.dependent.getD "") = some d) :
      Fault entry (.badName
        ⟨Rule.describe (entry.dependent.getD "") (entry.dependency.getD "") s, .dependent,
          entry.dependent.getD "", d⟩)
  | dependency {s : Severity} {d : Defect} (severity : Severity.ofText? entry.severity = some s)
      (dependent : Name.defect? (entry.dependent.getD "") = none)
      (bad : Name.defect? (entry.dependency.getD "") = some d) :
      Fault entry (.badName
        ⟨Rule.describe (entry.dependent.getD "") (entry.dependency.getD "") s, .dependency,
          entry.dependency.getD "", d⟩)

/-- The fault in a configuration that comes before all others. -/
inductive Config.Faulty (config : Config) : LoadError → Prop where
  /-- The default severity is given and is none. -/
  | default {e : LoadError} {text : String} (given : config.defaultSeverity = some text)
      (unknown : Severity.ofText? text = none)
      (reported : e.Reports "default-severity" (.unknownSeverity text)) : Faulty config e
  /-- The default severity is in order, and this is the first entry that is not. -/
  | entry {e : LoadError} {i : Nat} {entry : RuleEntry} {source : RuleError}
      (default : ∃ s, config.default? = some s)
      (before : ∀ k < i, ∀ entry', config.dependencyRules[k]? = some entry' →
        ∃ r, entry'.Writes r)
      (here : config.dependencyRules[i]? = some entry) (fault : entry.Fault source)
      (reported : e.Reports ("dependency-rules[" ++ toString i ++ "]") source) : Faulty config e
  /-- The entries are in order as well, and this is the first arrow rule that is refused. -/
  | arrow {e : LoadError} {j : Nat} {line : String} {source : RuleError}
      (default : ∃ s, config.default? = some s)
      (entries : ∀ entry ∈ config.dependencyRules, ∃ r, entry.Writes r)
      (before : ∀ k < j, ∀ line', config.arrowRules.Numbered k line' →
        ∃ rules, Rule.parseArrow line' = .ok rules)
      (here : config.arrowRules.Numbered j line) (refused : Rule.parseArrow line = .error source)
      (reported : e.Reports ("arrow-rules[" ++ toString j ++ "]") source) : Faulty config e
  /-- Everything can be read, and the rules that come of it clash. -/
  | conflict {c : Conflict} {rules : List Rule} {i j : Nat}
      (default : ∃ s, config.default? = some s) (listed : config.Lists rules)
      (first : c.IsFirst rules i j) : Faulty config (.conflict c)

/-! ## Walks -/

/-- **A walk along a list fails where a step fails for the first time.** The steps are numbered from
`i` on; what they give is joined behind them. -/
theorem walk_eq_error_iff {ε α β γ : Type} (step : Nat → α → Except ε β) (join : β → γ → γ)
    (walk : Nat → List α → Except ε γ) (hnil : ∀ i, ∃ c, walk i [] = .ok c)
    (hcons : ∀ i a l, walk i (a :: l) =
      (step i a >>= fun b => walk (i + 1) l >>= fun c => .ok (join b c)))
    {i : Nat} {l : List α} {e : ε} :
    walk i l = .error e ↔ ∃ k a, l[k]? = some a ∧ step (i + k) a = .error e ∧
      ∀ k' < k, ∀ a', l[k']? = some a' → ∃ b, step (i + k') a' = .ok b := by
  induction l generalizing i with
  | nil =>
    obtain ⟨c, hc⟩ := hnil i
    simp [hc]
  | cons a l ih =>
    have hshift : ∀ k, i + (k + 1) = i + 1 + k := fun k => by omega
    have hsplit : walk i (a :: l) = .error e ↔
        step i a = .error e ∨ ∃ b, step i a = .ok b ∧ walk (i + 1) l = .error e := by
      simp [hcons]
    rw [hsplit]
    refine ⟨fun h => ?_, fun h => ?_⟩
    · rcases h with h | ⟨b, hb, hrest⟩
      · exact ⟨0, a, rfl, h, fun k' hk' => absurd hk' (Nat.not_lt_zero k')⟩
      · obtain ⟨k, a', ha', hstep, hbefore⟩ := ih.1 hrest
        refine ⟨k + 1, a', ha', hshift k ▸ hstep, fun k' hk' c hc => ?_⟩
        cases k' with
        | zero =>
          cases hc
          exact ⟨b, hb⟩
        | succ k' => exact hshift k' ▸ hbefore k' (by omega) c hc
    · obtain ⟨k, a', ha', hstep, hbefore⟩ := h
      cases k with
      | zero =>
        cases ha'
        exact Or.inl hstep
      | succ k =>
        -- the first step does not fail, so the walk goes on
        obtain ⟨b, hb⟩ := hbefore 0 (by omega) a rfl
        have hrest : walk (i + 1) l = .error e := by
          refine ih.2 ⟨k, a', ha', hshift k ▸ hstep, fun k' hk' c hc => ?_⟩
          exact hshift k' ▸ hbefore (k' + 1) (by omega) c hc
        exact Or.inr ⟨b, hb, hrest⟩

namespace Config

@[simp] theorem severityAt_eq_error {place : Place} {text : String} {e : LoadError} :
    severityAt place text = .error e ↔
      Severity.ofText? text = none ∧ e = .badRule place (.unknownSeverity text) := by
  unfold severityAt
  cases Severity.ofText? text with
  | none => simp [eq_comm]
  | some s => simp

theorem loadDefault_eq_error {config : Config} {e : LoadError} :
    config.loadDefault = .error e ↔ ∃ text, config.defaultSeverity = some text ∧
      Severity.ofText? text = none ∧ e = .badRule .defaultSeverity (.unknownSeverity text) := by
  unfold loadDefault
  cases config.defaultSeverity with
  | none => simp
  | some text => simp

theorem loadEntry_eq_error {index : Nat} {entry : RuleEntry} {e : LoadError} :
    loadEntry index entry = .error e ↔
      ∃ source, entry.Fault source ∧ e = .badRule (.dependencyRule index) source := by
  unfold loadEntry Rule.ofOptional
  simp only [bind_eq_error, severityAt_eq_error, severityAt_eq_ok, mapError_eq_error,
    Rule.ofTexts_eq_error_iff]
  refine ⟨fun h => ?_, fun h => ?_⟩
  · rcases h with ⟨hs, he⟩ | ⟨s, hs, source, ⟨d, hd, hsource⟩ | ⟨hd, f, hf, hsource⟩, he⟩
    · exact ⟨_, .severity hs, he⟩
    · exact ⟨source, hsource ▸ .dependent hs hd, he.symm⟩
    · exact ⟨source, hsource ▸ .dependency hs hd hf, he.symm⟩
  · obtain ⟨source, hfault, he⟩ := h
    cases hfault with
    | severity hs => exact Or.inl ⟨hs, he⟩
    | dependent hs hd => exact Or.inr ⟨_, hs, _, Or.inl ⟨_, hd, rfl⟩, he.symm⟩
    | dependency hs hd hf => exact Or.inr ⟨_, hs, _, Or.inr ⟨hd, _, hf, rfl⟩, he.symm⟩

theorem loadEntries_eq_error {entries : List RuleEntry} {e : LoadError} :
    loadEntries 0 entries = .error e ↔ ∃ i entry source, entries[i]? = some entry ∧
      entry.Fault source ∧ e = .badRule (.dependencyRule i) source ∧
        ∀ k < i, ∀ entry', entries[k]? = some entry' → ∃ r, entry'.Writes r := by
  rw [walk_eq_error_iff loadEntry List.cons loadEntries (fun _ => ⟨[], rfl⟩) fun _ _ _ => rfl]
  simp only [Nat.zero_add, loadEntry_eq_error, loadEntry_eq_ok_iff]
  refine ⟨fun h => ?_, fun h => ?_⟩
  · obtain ⟨i, entry, hentry, ⟨source, hfault, he⟩, hbefore⟩ := h
    exact ⟨i, entry, source, hentry, hfault, he, hbefore⟩
  · obtain ⟨i, entry, source, hentry, hfault, he, hbefore⟩ := h
    exact ⟨i, entry, hentry, ⟨source, hfault, he⟩, hbefore⟩

theorem loadArrows_eq_error {lines : List String} {e : LoadError} :
    loadArrows 0 lines = .error e ↔ ∃ j line source, lines[j]? = some line ∧
      Rule.parseArrow line = .error source ∧ e = .badRule (.arrowRule j) source ∧
        ∀ k < j, ∀ line', lines[k]? = some line' → ∃ rules, Rule.parseArrow line' = .ok rules := by
  rw [walk_eq_error_iff
    (fun j line => (Rule.parseArrow line).mapError (LoadError.badRule (.arrowRule j)))
    List.append loadArrows (fun _ => ⟨[], rfl⟩) fun _ _ _ => rfl]
  simp only [Nat.zero_add, mapError_eq_error, mapError_eq_ok]
  refine ⟨fun h => ?_, fun h => ?_⟩
  · obtain ⟨j, line, hline, ⟨source, hrefused, he⟩, hbefore⟩ := h
    exact ⟨j, line, source, hline, hrefused, he.symm, hbefore⟩
  · obtain ⟨j, line, source, hline, hrefused, he, hbefore⟩ := h
    exact ⟨j, line, hline, ⟨source, hrefused, he.symm⟩, hbefore⟩

/-! ## Loading -/

theorem loadRules_eq_error_iff {config : Config} {e : LoadError} :
    config.loadRules = .error e ↔ config.loadDefault = .error e ∨
      (∃ s, config.loadDefault = .ok s) ∧ (loadEntries 0 config.dependencyRules = .error e ∨
        (∃ entries, loadEntries 0 config.dependencyRules = .ok entries) ∧
          loadArrows 0 config.arrowRules.lines = .error e) := by
  simp [loadRules]

theorem load_eq_error_iff {config : Config} {e : LoadError} :
    config.load = .error e ↔ config.loadRules = .error e ∨
      ∃ s rules c, config.loadRules = .ok (s, rules) ∧ Index.ofRules rules = .error c ∧
        e = .conflict c := by
  simp [load, @eq_comm _ e]

theorem exists_loadDefault_iff {config : Config} :
    (∃ s, config.loadDefault = .ok s) ↔ ∃ s, config.default? = some s := by
  simp only [loadDefault_eq_ok]

theorem exists_loadEntries_iff {entries : List RuleEntry} :
    (∃ rules, loadEntries 0 entries = .ok rules) ↔ ∀ entry ∈ entries, ∃ r, entry.Writes r := by
  simp only [loadEntries_eq_ok_iff]
  exact exists_forall₂_iff

/-- A step of loading only comes to fail if all before it is in order. -/
theorem faulty_of_load {config : Config} {e : LoadError} (h : config.load = .error e) :
    config.Faulty e := by
  rcases load_eq_error_iff.1 h with h | ⟨s, rules, c, hrules, hc, rfl⟩
  · rcases loadRules_eq_error_iff.1 h with h | ⟨hdefault, hrest⟩
    · obtain ⟨text, hgiven, hunknown, he⟩ := loadDefault_eq_error.1 h
      exact .default hgiven hunknown (LoadError.reports_text_iff.2 he)
    · have hdefault := exists_loadDefault_iff.1 hdefault
      rcases hrest with h | ⟨hentries, h⟩
      · obtain ⟨i, entry, source, hhere, hfault, he, hbefore⟩ := loadEntries_eq_error.1 h
        exact .entry hdefault hbefore hhere hfault (LoadError.reports_text_iff.2 he)
      · obtain ⟨j, line, source, hhere, hrefused, he, hbefore⟩ := loadArrows_eq_error.1 h
        -- from here on an arrow rule goes by its number and not by its place among the lines
        simp only [← ArrowRules.numbered_iff] at hhere hbefore
        exact .arrow hdefault (exists_loadEntries_iff.1 hentries) hbefore hhere hrefused
          (LoadError.reports_text_iff.2 he)
  · obtain ⟨hdefault, hlisted⟩ := loadRules_eq_ok.1 hrules
    obtain ⟨i, j, hfirst⟩ := Scan.clash?_eq_some_iff.1 (Index.ofRules_eq_error_iff.1 hc)
    exact .conflict ⟨s, hdefault⟩ (lists_iff.2 hlisted) hfirst

theorem load_of_faulty {config : Config} {e : LoadError} (h : config.Faulty e) :
    config.load = .error e := by
  cases h with
  | @default _ text hgiven hunknown hreported =>
    have he : e = .badRule .defaultSeverity (.unknownSeverity text) :=
      LoadError.reports_text_iff.1 hreported
    have hload := loadDefault_eq_error.2 ⟨text, hgiven, hunknown, he⟩
    exact load_eq_error_iff.2 (Or.inl (loadRules_eq_error_iff.2 (Or.inl hload)))
  | @entry _ i entry source hdefault hbefore hhere hfault hreported =>
    have he : e = .badRule (.dependencyRule i) source := LoadError.reports_text_iff.1 hreported
    have hgiven := exists_loadDefault_iff.2 hdefault
    have hload := loadEntries_eq_error.2 ⟨i, entry, source, hhere, hfault, he, hbefore⟩
    have hrules := loadRules_eq_error_iff.2 (Or.inr ⟨hgiven, Or.inl hload⟩)
    exact load_eq_error_iff.2 (Or.inl hrules)
  | @arrow _ j line source hdefault hentries hbefore hhere hrefused hreported =>
    have he : e = .badRule (.arrowRule j) source := LoadError.reports_text_iff.1 hreported
    simp only [ArrowRules.numbered_iff] at hhere hbefore
    have hgiven := exists_loadDefault_iff.2 hdefault
    have hmade := exists_loadEntries_iff.2 hentries
    have hload := loadArrows_eq_error.2 ⟨j, line, source, hhere, hrefused, he, hbefore⟩
    have hrules := loadRules_eq_error_iff.2 (Or.inr ⟨hgiven, Or.inr ⟨hmade, hload⟩⟩)
    exact load_eq_error_iff.2 (Or.inl hrules)
  | @conflict c rules i j hdefault hlisted hfirst =>
    obtain ⟨s, hs⟩ := hdefault
    have hrules := loadRules_eq_ok.2 ⟨hs, lists_iff.1 hlisted⟩
    have hclash := Index.ofRules_eq_error_iff.2 (Scan.clash?_eq_some_iff.2 ⟨i, j, hfirst⟩)
    exact load_eq_error_iff.2 (Or.inr ⟨s, rules, c, hrules, hclash, rfl⟩)

/-- **Loading reports the fault that comes before all others.** The error of a configuration that
does not load is that fault, and one that has a fault does not load. -/
theorem load_reports_first (config : Config) :
    (∀ e, config.load = .error e ↔ config.Faulty e) ∧
      ((¬∃ set, config.load = .ok set) ↔ ∃ e, config.Faulty e) := by
  have hreports : ∀ e, config.load = .error e ↔ config.Faulty e :=
    fun e => ⟨faulty_of_load, load_of_faulty⟩
  refine ⟨hreports, ?_⟩
  simp only [← hreports]
  cases config.load with
  | error e => simp
  | ok set => simp

/-- Blank lines of a block do not count, and what stands behind a fault is not looked at. -/
example : load ⟨some "Warn", [⟨some "biz.app", some "jdk.Cleaner", "inform"⟩],
      .block "\n \nbiz -> jdk.Cleaner, jdk.Signal: FAIL\r\n\t\nbiz -> jdk..Cleaner: WARN\nbiz"⟩ =
    .error (.badRule (.arrowRule 1) (.badName
      ⟨"(biz -> jdk..Cleaner: WARN)", .dependency, "jdk..Cleaner", .emptyPart⟩)) := by rfl

end Config

end ApiGate
