import ApiGate.Proofs.Identity
import ApiGate.Proofs.Resolution

/-!
# What the table of rules shows

The table has a row for each rule, in three columns. A column is filled up with spaces, but nothing
is cut off: a name that is too long for its column goes on beyond it, and one space still follows. So
the columns of a row are where its runs of spaces are, whatever the names are and however long. This
rests on what may not stand in a name: of all blanks only the next-line control may, and so neither
a space nor a line end does.

Rows are lines, and lines are found again by their ends. So the rows tell which rules there are, and
in which order (`Program.run_listRules_rows`).
-/

namespace ApiGate

open Chars Text

/-! ## Cutting at runs -/

namespace Text

/-- The pieces of a text between its runs of a separator. A run that opens or closes the text has an
empty piece beyond it. -/
def cutRuns (sep : Char) : List Char → List (List Char)
  | [] => [[]]
  | c :: cs =>
    if c = sep then
      -- of a run, only the last separator cuts
      if cs.head? = some sep then cutRuns sep cs else [] :: cutRuns sep cs
    else (cutRuns sep cs).modifyHead (c :: ·)

variable {sep : Char} {piece run rest : List Char}

theorem cutRuns_of_not_mem (h : sep ∉ piece) : cutRuns sep piece = [piece] := by
  induction piece with
  | nil => rfl
  | cons c cs ih =>
    rw [List.mem_cons, not_or] at h
    rw [cutRuns, if_neg (Ne.symm h.1), ih h.2, List.modifyHead_cons]

theorem cutRuns_run_append (hrun : ∀ c ∈ run, c = sep) (hne : run ≠ [])
    (hrest : rest.head? ≠ some sep) : cutRuns sep (run ++ rest) = [] :: cutRuns sep rest := by
  induction run with
  | nil => exact absurd rfl hne
  | cons c run ih =>
    rw [List.forall_mem_cons] at hrun
    obtain ⟨rfl, hrun⟩ := hrun
    cases run with
    | nil => rw [List.singleton_append, cutRuns, if_pos rfl, if_neg hrest]
    | cons d run =>
      have hd : d = c := hrun d List.mem_cons_self
      rw [List.cons_append, cutRuns, if_pos rfl, if_pos (by rw [hd]; rfl),
        ih hrun (List.cons_ne_nil d run)]

/-- A piece ends where the first run begins. -/
theorem cutRuns_append (hpiece : sep ∉ piece) (hrun : ∀ c ∈ run, c = sep) (hne : run ≠ [])
    (hrest : rest.head? ≠ some sep) :
    cutRuns sep (piece ++ (run ++ rest)) = piece :: cutRuns sep rest := by
  induction piece with
  | nil => exact cutRuns_run_append hrun hne hrest
  | cons c piece ih =>
    rw [List.mem_cons, not_or] at hpiece
    rw [List.cons_append, cutRuns, if_neg (Ne.symm hpiece.1), ih hpiece.2, List.modifyHead_cons]

end Text

/-! ## Rows -/

namespace Rule

/-- A line shows a rule: its runs of spaces cut it into severity, dependent and dependency. -/
structure Shown (r : Rule) (line : List Char) : Prop where
  lineFeed : '\n' ∉ line
  carriageReturn : '\r' ∉ line
  columns : cutRuns ' ' line =
    [r.severity.name.toList, r.dependent.text.toList, r.dependency.text.toList]

theorem Shown.unique {r s : Rule} {line : List Char} (hr : r.Shown line) (hs : s.Shown line) :
    r = s := by
  have hcolumns := hr.columns.symm.trans hs.columns
  simp only [List.cons.injEq, and_true] at hcolumns
  exact ext_chars hcolumns.2.1 hcolumns.2.2 hcolumns.1

/-- What follows a text in its column: the spaces that fill the column, and one more. -/
def gap (width : Nat) (text : String) : List Char :=
  List.replicate (width - text.length) ' ' ++ [' ']

theorem eq_space_of_mem_gap {width : Nat} {text : String} {c : Char} (h : c ∈ gap width text) :
    c = ' ' := by
  rcases List.mem_append.1 h with h | h
  · exact List.eq_of_mem_replicate h
  · exact List.mem_singleton.1 h

/-- The row on a rule, without its line end. -/
def rowLine (r : Rule) : List Char :=
  r.severity.name.toList ++ (gap 8 r.severity.name ++
    (r.dependent.text.toList ++ (gap 40 r.dependent.text ++ r.dependency.text.toList)))

theorem toList_tableRow (r : Rule) :
    (tableRow r.severity.name r.dependent.text r.dependency.text).toList =
      r.rowLine ++ ['\n'] := by
  simp [tableRow, padRight, rowLine, gap]

/-- A row holds names and spaces. -/
theorem not_mem_rowLine {r : Rule} {c : Char} (hblank : isBlank c = true) (hspace : c ≠ ' ')
    (hnext : c ≠ nextLine) : c ∉ r.rowLine := by
  have hgap : ∀ {width : Nat} {text : String}, c ∉ gap width text :=
    fun hmem => hspace (eq_space_of_mem_gap hmem)
  unfold rowLine
  simp only [List.mem_append, not_or]
  exact ⟨Severity.not_mem_name_of_isBlank hblank, hgap, Name.not_mem_text_of_isBlank hblank hnext,
    hgap, Name.not_mem_text_of_isBlank hblank hnext⟩

/-- **A row shows its rule.** -/
theorem shown_rowLine (r : Rule) : r.Shown r.rowLine where
  lineFeed := not_mem_rowLine (by decide) (by decide) (by decide)
  carriageReturn := not_mem_rowLine (by decide) (by decide) (by decide)
  columns := by
    have hgap : ∀ {width : Nat} {text : String}, gap width text ≠ [] := by simp [gap]
    have hname : ∀ n : Name, ' ' ∉ n.text.toList := fun n =>
      Name.not_mem_text_of_isBlank (by decide) (by decide)
    -- no name opens with a space, so the run before it ends there
    have hfirst : ∀ (n : Name) (rest : List Char), (n.text.toList ++ rest).head? ≠ some ' ' := by
      intro n rest h
      obtain ⟨c, cs, hcs, _⟩ := n.exists_first
      refine hname n ?_
      rw [hcs, List.cons_append, List.head?_cons, Option.some.injEq] at h
      rw [hcs, h]
      exact List.mem_cons_self
    have hlast := hfirst r.dependency []
    rw [List.append_nil] at hlast
    unfold rowLine
    rw [cutRuns_append (Severity.not_mem_name_of_isBlank (by decide))
        (fun _ => eq_space_of_mem_gap) hgap (hfirst _ _),
      cutRuns_append (hname _) (fun _ => eq_space_of_mem_gap) hgap hlast,
      cutRuns_of_not_mem (hname _)]

theorem lineFeed_of_shown {rules : List Rule} {lines : List (List Char)}
    (h : List.Forall₂ Shown rules lines) : ∀ line ∈ lines, '\n' ∉ line := by
  induction h with
  | nil => exact fun _ hline => absurd hline List.not_mem_nil
  | cons hr _ ih => exact List.forall_mem_cons.2 ⟨hr.lineFeed, ih⟩

/-- Lines show one list of rules at most. -/
theorem Shown.unique_list {rules rules' : List Rule} {lines : List (List Char)}
    (h : List.Forall₂ Shown rules lines) (h' : List.Forall₂ Shown rules' lines) : rules = rules' :=
  have hunique : Relator.LeftUnique Shown := fun _ _ _ hr hs => hr.unique hs
  hunique.forall₂ h h'

end Rule

namespace RuleSet

theorem toList_join_rows (rules : List Rule) :
    (String.join (rows rules)).toList = (rules.map Rule.rowLine).flatMap (· ++ ['\n']) := by
  rw [String.toList_join, rows, List.flatMap_map, List.flatMap_map]
  exact List.flatMap_congr fun r _ => r.toList_tableRow

/-- The rows stand between the dashed line and an empty one. -/
theorem exists_table_eq (set : RuleSet) (hne : set.rules ≠ []) (path : Option String) :
    ∃ title, set.table path = title ++ tableRow "Severity" "Dependent" "Dependency"
      ++ String.ofList (List.replicate 80 '-') ++ "\n"
      ++ String.ofList ((set.rules.map Rule.rowLine).flatMap (· ++ ['\n']))
      ++ "\nDependencies no rule covers are judged " ++ set.defaultSeverity.name ++ ".\n"
      ++ "\nThe most specific rule wins; `*` applies when no package or type rule matches.\n" := by
  rw [← eq_ofList_iff.2 (toList_join_rows set.rules)]
  unfold table
  rw [if_neg hne]
  simp only [← String.append_assoc]
  cases path with
  | none => exact ⟨_, rfl⟩
  | some path => exact ⟨_, rfl⟩

end RuleSet

namespace Program

/--
**The table shows the rules of the configuration.**

If a configuration gives any rules, the dashed line is followed by one line for each of them, in
their order, and then by an empty line. Each line shows its rule, and so no other list of rules can
have the same lines.
-/
theorem run_listRules_rows {env : Environment} {args : List String} {invocation : Invocation}
    {default : Severity} {rules : List Rule} (h : CommandLine.parse args = .ok invocation)
    (hcommand : invocation.command = .listRules)
    (hgives : (ConfigSource.resolve env invocation.config).Gives env.files default rules)
    (hne : rules ≠ []) :
    ∃ title lines, List.Forall₂ Rule.Shown rules lines ∧
      (run env args).output = title ++ tableRow "Severity" "Dependent" "Dependency"
        ++ String.ofList (List.replicate 80 '-') ++ "\n"
        ++ String.ofList (lines.flatMap (· ++ ['\n']))
        ++ "\nDependencies no rule covers are judged " ++ default.name ++ ".\n"
        ++ "\nThe most specific rule wins; `*` applies when no package or type rule matches.\n" ∧
      ∀ rules' lines', List.Forall₂ Rule.Shown rules' lines' →
        lines'.flatMap (· ++ ['\n']) = lines.flatMap (· ++ ['\n']) → rules' = rules := by
  obtain ⟨index, hload⟩ := ConfigSource.gives_iff.1 hgives
  obtain ⟨_, _, houtput⟩ := run_listRules h hcommand hload
  obtain ⟨title, htable⟩ := RuleSet.exists_table_eq ⟨rules, index, default⟩ hne
    (ConfigSource.resolve env invocation.config).path?
  have hshown : List.Forall₂ Rule.Shown rules (rules.map Rule.rowLine) :=
    List.forall₂_map_right_iff.2 (List.forall₂_same.2 fun r _ => r.shown_rowLine)
  refine ⟨title, rules.map Rule.rowLine, hshown, houtput.trans htable, ?_⟩
  intro rules' lines' hshown' hprinted
  -- no row holds a line end, so equal rows are cut into equal lines
  have hlines := eq_of_endLines (Rule.lineFeed_of_shown hshown') (Rule.lineFeed_of_shown hshown)
    hprinted
  exact Rule.Shown.unique_list (hlines ▸ hshown') hshown

/-- A rule for a dependent that is too long for its column, about a dependency whose name the
next-line control closes. -/
def wideRule : Rule :=
  ⟨⟨"com.example.application.persistence.internal", by decide +kernel⟩,
    ⟨"sun.misc.Cleaner\u0085", by decide +kernel⟩, .warn⟩

/-- A configuration with this rule. -/
def wideConfig : Config :=
  ⟨none, [⟨some "com.example.application.persistence.internal", some "sun.misc.Cleaner\u0085",
    "warn"⟩], .list []⟩

/-- A project with this configuration. -/
def wideProject : Environment :=
  ⟨FileTree.ofEntries [("jdeps-guard.toml", .file (some
    ("dependency-rules = [[\"com.example.application.persistence.internal\", "
      ++ "\"sun.misc.Cleaner\\u0085\", \"warn\"]]")))], none, none, none⟩

theorem run_listRules_rows_wide :
    CommandLine.parse ["list-rules"] = .ok ⟨false, none, .listRules⟩ ∧
      (ConfigSource.resolve wideProject none).Gives wideProject.files .fail [wideRule] ∧
      ∃ title line, wideRule.Shown line ∧
        (run wideProject ["list-rules"]).output =
          title ++ tableRow "Severity" "Dependent" "Dependency"
            ++ String.ofList (List.replicate 80 '-') ++ "\n" ++ String.ofList (line ++ ['\n'])
            ++ "\nDependencies no rule covers are judged " ++ Severity.fail.name ++ ".\n"
            ++ "\nThe most specific rule wins; `*` applies when no package or type rule matches.\n" := by
  have hparse : CommandLine.parse ["list-rules"] = .ok ⟨false, none, .listRules⟩ := by rfl
  have hresolve : ConfigSource.resolve wideProject none = .project "./jdeps-guard.toml" := by
    decide +kernel
  have hholds : (ConfigSource.project "./jdeps-guard.toml").Holds wideProject.files wideConfig :=
    ConfigSource.holds_of_bind rfl (by decide +kernel)
  have hload : ∃ index, wideConfig.load = .ok ⟨[wideRule], index, .fail⟩ := ⟨_, by rfl⟩
  have hgives : (ConfigSource.resolve wideProject none).Gives wideProject.files .fail [wideRule] :=
    hresolve ▸ ⟨wideConfig, hholds, Config.load_iff_says.1 hload⟩
  obtain ⟨title, lines, hshown, houtput, _⟩ :=
    run_listRules_rows hparse rfl hgives (List.cons_ne_nil _ _)
  obtain ⟨line, _, hline, hnone, rfl⟩ := List.forall₂_cons_left_iff.1 hshown
  cases List.forall₂_nil_left_iff.1 hnone
  rw [List.flatMap_singleton] at houtput
  exact ⟨hparse, hgives, title, line, hline, houtput⟩

end Program

end ApiGate
