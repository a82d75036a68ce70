import ApiGate.Program
import ApiGate.Proofs.Identity
import ApiGate.Proofs.Regrouping
import ApiGate.Proofs.Verdict
import ApiGate.Proofs.Views

/-!
# What compact lines tell

Compact output is read by programs, line by line: a severity, a type, an arrow, a dependency. The
names come from the facts as they are. All that a name has to have is something besides blanks, and
it goes into the line as it is. So a name with a line end in it adds lines to the output, and these
may look like entries that nobody listed (`Program.run_check_compact_forged`); and a name with an
arrow in it leaves open which arrow separates the type from the dependency.

With such names out of the way, nothing is lost. `Findings.Clear` says when they are: there is no
line end in either name, and in the type, followed by its arrow, no arrow begins before that one. Then
the lines are the entries, a line has one clear reading, and findings are known by their entries
(`Program.run_check_compact`).
-/

namespace ApiGate

open Text

/-! ## Counting lines -/

namespace Text

/-- A text is made of so many lines, each with its line end. -/
def IsLines (n : Nat) (cs : List Char) : Prop :=
  ∃ lines : List (List Char), lines.length = n ∧ (∀ l ∈ lines, '\n' ∉ l) ∧
    cs = lines.flatMap (· ++ ['\n'])

variable {m n : Nat} {cs ds : List Char}

theorem IsLines.append (h : IsLines m cs) (h' : IsLines n ds) : IsLines (m + n) (cs ++ ds) := by
  obtain ⟨lines, rfl, hlines, rfl⟩ := h
  obtain ⟨lines', rfl, hlines', rfl⟩ := h'
  refine ⟨lines ++ lines', List.length_append, fun l hl => ?_, List.flatMap_append.symm⟩
  exact (List.mem_append.1 hl).elim (hlines l) (hlines' l)

theorem isLines_concat (cs : List Char) : IsLines (cs.count '\n' + 1) (cs ++ ['\n']) := by
  induction cs with
  | nil => exact ⟨[[]], rfl, by simp, rfl⟩
  | cons c cs ih =>
    obtain ⟨lines, hlength, hlines, hcs⟩ := ih
    by_cases hc : c = '\n'
    · refine ⟨[] :: lines, ?_, List.forall_mem_cons.2 ⟨List.not_mem_nil, hlines⟩, ?_⟩
      · rw [List.length_cons, hlength, hc, List.count_cons_self]
      · rw [List.cons_append, hcs, hc]
        rfl
    · -- the character goes to the front of the first line
      obtain ⟨l, rest, rfl⟩ := List.exists_cons_of_length_eq_add_one hlength
      rw [List.forall_mem_cons] at hlines
      refine ⟨(c :: l) :: rest, ?_, List.forall_mem_cons.2 ⟨?_, hlines.2⟩, ?_⟩
      · rw [List.length_cons, List.count_cons_of_ne hc, ← hlength, List.length_cons]
      · exact List.not_mem_cons_of_ne_of_not_mem (Ne.symm hc) hlines.1
      · rw [List.cons_append, hcs]
        rfl

theorem IsLines.count_eq (h : IsLines n cs) : cs.count '\n' = n := by
  obtain ⟨lines, rfl, hlines, rfl⟩ := h
  induction lines with
  | nil => rfl
  | cons l lines ih =>
    rw [List.forall_mem_cons] at hlines
    rw [List.flatMap_cons, List.count_append, ih hlines.2, List.count_append,
      List.count_eq_zero.2 hlines.1, List.length_cons, List.count_singleton_self]
    omega

end Text

namespace Findings

/-! ## One line -/

/-- What separates the type from the dependency. -/
def arrow : List Char := [' ', '-', '>', ' ']

/-- The line on an entry, without its line end. -/
def entryBody (e : Severity × String × String) : List Char :=
  e.1.name.toList ++ ' ' :: (e.2.1.toList ++ arrow ++ e.2.2.toList)

theorem toList_entryLine (e : Severity × String × String) :
    (entryLine e).toList = entryBody e ++ ['\n'] := by
  simp [entryLine, entryBody, arrow]

/-- All line ends in a line are in the names. -/
theorem count_entryBody (e : Severity × String × String) :
    (entryBody e).count '\n' = (e.2.1.toList ++ e.2.2.toList).count '\n' := by
  have hseverity : e.1.name.toList.count '\n' = 0 :=
    List.count_eq_zero.2 (Severity.not_mem_name_of_isBlank (by decide))
  have harrow : arrow.count '\n' = 0 := by decide
  rw [entryBody, List.count_append, List.count_cons_of_ne (by decide), List.count_append,
    List.count_append, hseverity, harrow, List.count_append]
  omega

/-- An entry that can be told from its line: no name has a line end in it, and in the type, which
its arrow follows, no other arrow begins. -/
structure Clear (e : Severity × String × String) : Prop where
  type : '\n' ∉ e.2.1.toList
  dependency : '\n' ∉ e.2.2.toList
  first : ¬arrow <:+: e.2.1.toList ++ arrow.dropLast

variable {e e' : Severity × String × String}

theorem Clear.not_mem_entryBody (h : Clear e) : '\n' ∉ entryBody e := by
  rw [← List.count_eq_zero, count_entryBody, List.count_eq_zero, List.mem_append, not_or]
  exact ⟨h.type, h.dependency⟩

/-- **A line has one clear reading.** -/
theorem Clear.eq_of_entryBody (h : Clear e) (h' : Clear e') (hbody : entryBody e = entryBody e') :
    e = e' := by
  have hspace : ∀ s : Severity, ' ' ∉ s.name.toList := fun _ =>
    Severity.not_mem_name_of_isBlank (by decide)
  obtain ⟨hseverity, hnames⟩ := eq_of_append_cons (hspace e.1) (hspace e'.1) hbody
  obtain ⟨htype, hdependency⟩ := eq_of_append_separator h.first h'.first hnames
  exact Prod.ext (Severity.name_inj (String.toList_inj.1 hseverity))
    (Prod.ext (String.toList_inj.1 htype) (String.toList_inj.1 hdependency))

/-- If another arrow begins in the type, the line is also that of an entry with a shorter type. -/
theorem exists_entryLine_eq (h : arrow <:+: e.2.1.toList ++ arrow.dropLast) :
    ∃ e', e' ≠ e ∧ entryLine e' = entryLine e := by
  obtain ⟨s, t, d⟩ := e
  obtain ⟨before, between, hcut⟩ := h
  have hlength := congrArg List.length hcut
  simp only [List.length_append, List.length_dropLast] at hlength
  refine ⟨(s, String.ofList before, String.ofList (between ++ ' ' :: d.toList)), fun heq => ?_, ?_⟩
  · simp only [Prod.mk.injEq, true_and] at heq
    have hshort : before = t.toList := by rw [← heq.1, String.toList_ofList]
    rw [hshort] at hlength
    have hpos : 0 < arrow.length := by decide
    omega
  · -- the type and its arrow, cut at the arrow that comes first
    have hnames : before ++ arrow ++ (between ++ ' ' :: d.toList) = t.toList ++ arrow ++ d.toList := by
      have harrow : arrow = arrow.dropLast ++ [' '] := by decide
      rw [← List.append_assoc, hcut]
      conv_rhs => rw [harrow]
      simp only [List.append_assoc, List.singleton_append]
    rw [← String.toList_inj, toList_entryLine, toList_entryLine]
    simp only [entryBody, String.toList_ofList, hnames]

/-! ## All lines -/

theorem toList_join_entryLine (entries : List (Severity × String × String)) :
    (String.join (entries.map entryLine)).toList = (entries.map entryBody).flatMap (· ++ ['\n']) := by
  rw [String.toList_join, List.flatMap_map, List.flatMap_map]
  exact List.flatMap_congr fun e _ => toList_entryLine e

/-- How many line ends the names in entries hold. -/
def lineFeeds (entries : List (Severity × String × String)) : Nat :=
  (entries.flatMap fun e => e.2.1.toList ++ e.2.2.toList).count '\n'

theorem lineFeeds_eq_zero_iff {entries : List (Severity × String × String)} :
    lineFeeds entries = 0 ↔ ∀ e ∈ entries, '\n' ∉ e.2.1.toList ∧ '\n' ∉ e.2.2.toList := by
  unfold lineFeeds
  simp only [List.count_eq_zero, List.mem_flatMap, List.mem_append, not_exists, not_and, not_or]

/-- There is a line for each entry, and one more for each line end in a name. -/
theorem isLines_join_entryLine (entries : List (Severity × String × String)) :
    IsLines (entries.length + lineFeeds entries) (String.join (entries.map entryLine)).toList := by
  rw [toList_join_entryLine]
  induction entries with
  | nil => exact ⟨[], rfl, fun _ h => absurd h List.not_mem_nil, rfl⟩
  | cons e entries ih =>
    have hcount : (e :: entries).length + lineFeeds (e :: entries) =
        (entryBody e).count '\n' + 1 + (entries.length + lineFeeds entries) := by
      unfold lineFeeds
      rw [count_entryBody, List.length_cons, List.flatMap_cons, List.count_append]
      omega
    rw [hcount]
    exact (isLines_concat (entryBody e)).append ih

theorem entries_eq_of_join {entries entries' : List (Severity × String × String)}
    (h : ∀ e ∈ entries, Clear e) (h' : ∀ e ∈ entries', Clear e)
    (hjoin : String.join (entries.map entryLine) = String.join (entries'.map entryLine)) :
    entries = entries' := by
  have hlined : ∀ {es : List (Severity × String × String)}, (∀ e ∈ es, Clear e) →
      ∀ l ∈ es.map entryBody, '\n' ∉ l := by
    intro es hes l hl
    obtain ⟨e, he, rfl⟩ := List.mem_map.1 hl
    exact (hes e he).not_mem_entryBody
  rw [← String.toList_inj, toList_join_entryLine, toList_join_entryLine] at hjoin
  have hbodies := eq_of_endLines (hlined h) (hlined h') hjoin
  exact eq_of_map_eq (fun e he e' he' => (h e he).eq_of_entryBody (h' e' he')) hbodies

/-! ## Findings -/

theorem mem_entries {f : Findings} {s : Severity} {t d : String} :
    (s, t, d) ∈ f.entries ↔ (t, d) ∈ Violation.pairs (f.violations s) := by
  unfold entries
  simp only [List.mem_flatMap, List.mem_reverse, List.mem_map, Prod.mk.injEq]
  refine ⟨fun h => ?_, fun h => ⟨s, Severity.mem_all s, (t, d), h, rfl, rfl⟩⟩
  obtain ⟨s', _, p, hp, rfl, rfl⟩ := h
  exact hp

theorem length_entries (f : Findings) : f.entries.length = f.total := by
  unfold entries total count
  simp only [Severity.all, List.reverse_cons, List.reverse_nil, List.nil_append, List.cons_append,
    List.flatMap_cons, List.flatMap_nil, List.length_append, List.length_map, List.length_nil]
  omega

/-- Findings are known by their entries. -/
theorem ofUsages_eq_of_entries {judge judge' : Judge} {default default' : Severity}
    {usages usages' : List Usage}
    (h : (ofUsages judge default usages).entries = (ofUsages judge' default' usages').entries) :
    ofUsages judge default usages = ofUsages judge' default' usages' :=
  ext_violations fun _ => violations_eq_of_pairs fun t d => by rw [← mem_entries, h, mem_entries]

end Findings

namespace Program

open Findings

/-- A run is called for compact output, all loads, and these are the findings. -/
def Compacts (env : Environment) (args : List String) (f : Findings) : Prop :=
  ∃ verbose config path set facts,
    CommandLine.parse args = .ok ⟨verbose, config, .check path .compact⟩ ∧
      (ConfigSource.resolve env config).load env.files = .ok set ∧
      Facts.FoundAt env path facts ∧ f = set.findings (Facts.usages facts)

theorem Compacts.output {env : Environment} {args : List String} {f : Findings}
    (h : Compacts env args f) : (run env args).output = String.join (f.entries.map entryLine) := by
  obtain ⟨verbose, config, path, set, facts, hparse, hload, hfacts, rfl⟩ := h
  obtain ⟨told, hrun⟩ := run_check env hparse
  have hseverity : ∀ s v, v ∈ (set.findings (Facts.usages facts)).violations s → v.severity = s :=
    fun _ _ => severity_of_mem_violations_ofUsages
  rw [← compact_eq_join hseverity, hrun]
  simp only [check, hload, Facts.read_eq_ok_iff.2 hfacts]
  rfl

theorem Compacts.eq_of_entries {env env' : Environment} {args args' : List String}
    {f g : Findings} (h : Compacts env args f) (h' : Compacts env' args' g)
    (hentries : f.entries = g.entries) : f = g := by
  obtain ⟨_, _, _, _, _, _, _, _, rfl⟩ := h
  obtain ⟨_, _, _, _, _, _, _, _, rfl⟩ := h'
  exact ofUsages_eq_of_entries hentries

/--
**Compact lines tell the findings if the names are clear.**

There is a line for each internal dependency, and one more for each line end in a name. So there are
as many lines as dependencies exactly if no name has a line end in it. Of findings whose entries are
all clear, no two have the same output. An entry whose type has another arrow in it is not clear, and
shares its line with another entry.
-/
theorem run_check_compact {env : Environment} {args : List String} {f : Findings}
    (h : Compacts env args f) :
    IsLines (f.total + lineFeeds f.entries) (run env args).output.toList ∧
      (IsLines f.total (run env args).output.toList ↔
        ∀ e ∈ f.entries, '\n' ∉ e.2.1.toList ∧ '\n' ∉ e.2.2.toList) ∧
      ((∀ e ∈ f.entries, Clear e) → ∀ env' args' g, Compacts env' args' g →
        (∀ e ∈ g.entries, Clear e) → ((run env' args').output = (run env args).output ↔ g = f)) ∧
      ∀ e ∈ f.entries, arrow <:+: e.2.1.toList ++ arrow.dropLast →
        ∃ e', e' ≠ e ∧ entryLine e' = entryLine e := by
  have hlines : IsLines (f.total + lineFeeds f.entries) (run env args).output.toList := by
    rw [h.output, ← length_entries]
    exact isLines_join_entryLine f.entries
  refine ⟨hlines, ?_, fun hclear env' args' g h' hclear' => ⟨fun houtput => ?_, fun hsame => ?_⟩,
    fun _ _ => exists_entryLine_eq⟩
  · rw [← lineFeeds_eq_zero_iff]
    refine ⟨fun hn => ?_, fun hzero => ?_⟩
    · have := hn.count_eq.symm.trans hlines.count_eq
      omega
    · rwa [hzero, Nat.add_zero] at hlines
  · rw [h.output, h'.output] at houtput
    exact h'.eq_of_entries h (entries_eq_of_join hclear' hclear houtput)
  · rw [h.output, h'.output, hsame]

/-! ## Forged lines -/

/-- Nothing but facts on standard input. -/
def onInput (text : String) : Environment := ⟨FileTree.ofEntries [], none, none, some text⟩

/-- The rules there are without a configuration. -/
def noRules : RuleSet := ⟨[], Index.empty, Findings.standardSeverity⟩

theorem compacts_onInput {text : String} {facts : List (String × List String)}
    (h : Facts.decode? text = some facts) :
    Compacts (onInput text) ["check", "--format", "compact", "-"]
      (noRules.findings (Facts.usages facts)) := by
  have hparse : CommandLine.parse ["check", "--format", "compact", "-"] =
      .ok ⟨false, none, .check "-" .compact⟩ := by rfl
  have hload : (ConfigSource.resolve (onInput text) none).load (onInput text).files =
      .ok noRules := by rfl
  exact ⟨false, none, "-", noRules, facts, hparse, hload, Facts.foundAt_hyphen rfl h, rfl⟩

/-- Two types, each of which depends on the same internal type. -/
def honestFacts : List (String × List String) :=
  [("com.foo.A", ["sun.misc.Unsafe"]), ("com.foo.B", ["sun.misc.Unsafe"])]

/-- One type. Its name goes on after an arrow and a line end, as if there were another line. -/
def forgedFacts : List (String × List String) :=
  [("com.foo.A -> sun.misc.Unsafe\nFAIL com.foo.B", ["sun.misc.Unsafe"])]

/-- A facts file with the two types. -/
def honestText : String :=
  "\x7b\"com.foo.A\": [\"sun.misc.Unsafe\"], \"com.foo.B\": [\"sun.misc.Unsafe\"]\x7d"

/-- A facts file with the one type. -/
def forgedText : String :=
  "\x7b\"com.foo.A -> sun.misc.Unsafe\\nFAIL com.foo.B\": [\"sun.misc.Unsafe\"]\x7d"

theorem compacts_honest : Compacts (onInput honestText) ["check", "--format", "compact", "-"]
    (noRules.findings (Facts.usages honestFacts)) :=
  compacts_onInput (by decide +kernel)

theorem entries_honest : (noRules.findings (Facts.usages honestFacts)).entries =
    [(.fail, "com.foo.A", "sun.misc.Unsafe"), (.fail, "com.foo.B", "sun.misc.Unsafe")] := by
  decide +kernel

theorem run_check_compact_honest :
    Compacts (onInput honestText) ["check", "--format", "compact", "-"]
        (noRules.findings (Facts.usages honestFacts)) ∧
      IsLines 2 (run (onInput honestText) ["check", "--format", "compact", "-"]).output.toList ∧
      ∀ env args g, Compacts env args g → (∀ e ∈ g.entries, Clear e) →
        (run env args).output =
          (run (onInput honestText) ["check", "--format", "compact", "-"]).output →
        g = noRules.findings (Facts.usages honestFacts) := by
  have hclear : ∀ e ∈ (noRules.findings (Facts.usages honestFacts)).entries, Clear e := by
    rw [entries_honest, List.forall_mem_cons, List.forall_mem_singleton]
    exact ⟨⟨by decide, by decide, by decide⟩, ⟨by decide, by decide, by decide⟩⟩
  have htotal : (noRules.findings (Facts.usages honestFacts)).total = 2 := by decide +kernel
  obtain ⟨_, hlines, hsame, _⟩ := run_check_compact compacts_honest
  refine ⟨compacts_honest, ?_, fun env args g hg hclear' houtput => ?_⟩
  · rw [← htotal]
    exact hlines.2 fun e he => ⟨(hclear e he).type, (hclear e he).dependency⟩
  · exact (hsame hclear env args g hg hclear').1 houtput

/-- The two facts are told apart by nothing in the output, and one dependency has two lines. -/
theorem run_check_compact_forged :
    ∃ f g, Compacts (onInput forgedText) ["check", "--format", "compact", "-"] f ∧
      Compacts (onInput honestText) ["check", "--format", "compact", "-"] g ∧ f ≠ g ∧
      (run (onInput forgedText) ["check", "--format", "compact", "-"]).output =
        (run (onInput honestText) ["check", "--format", "compact", "-"]).output ∧
      f.total = 1 ∧
      ¬IsLines f.total
        (run (onInput forgedText) ["check", "--format", "compact", "-"]).output.toList := by
  have hforged : Compacts (onInput forgedText) ["check", "--format", "compact", "-"]
      (noRules.findings (Facts.usages forgedFacts)) := compacts_onInput (by decide +kernel)
  have hentries : (noRules.findings (Facts.usages forgedFacts)).entries =
      [(.fail, "com.foo.A -> sun.misc.Unsafe\nFAIL com.foo.B", "sun.misc.Unsafe")] := by
    decide +kernel
  have htotal : (noRules.findings (Facts.usages forgedFacts)).total = 1 := by
    rw [← length_entries, hentries]
    rfl
  refine ⟨_, _, hforged, compacts_honest, fun hsame => ?_, ?_, htotal, fun hlines => ?_⟩
  · have hentry := hentries.symm.trans ((congrArg entries hsame).trans entries_honest)
    exact absurd (congrArg List.length hentry) (by decide)
  · rw [hforged.output, compacts_honest.output, hentries, entries_honest]
    decide
  · have hcount := hlines.count_eq
    rw [hforged.output, hentries, htotal] at hcount
    exact absurd hcount (by decide)

end Program

end ApiGate
