import ApiGate.Output
import ApiGate.Proofs.Tally

/-!
# All views show one count

Findings are looked at in many ways: the build asks whether there are failures, the report has
sections, the text ends in a summary, another program reads the compact lines, the log tells what
was judged. `Findings.Shows f n` says that each of them goes by the same four numbers.

Each view counts for itself, so this is shown in two steps.

* The numbers of the report, the text and the compact lines are those of the buckets, whatever the
  findings are.
* Whether there are violations is the same question as whether the number is 0 if no violation is
  empty. That is so for findings of usages (`Findings.violations_ofUsages_eq_nil_iff`).
-/

namespace ApiGate

/-- The sum of a number for each severity. -/
def Severity.sum (n : Severity → Nat) : Nat := n .ignore + n .inform + n .warn + n .fail

theorem Severity.sum_eq_zero_iff {n : Severity → Nat} : sum n = 0 ↔ ∀ s, n s = 0 := by
  unfold sum
  refine ⟨fun h s => ?_, fun h => by rw [h, h, h, h]⟩
  cases s <;> omega

theorem Findings.total_eq_zero_iff {f : Findings} : f.total = 0 ↔ ∀ s, f.count s = 0 :=
  Severity.sum_eq_zero_iff

/-! ## The report -/

theorem Action.ofSeverity_eq_failBuild_iff {s : Severity} :
    ofSeverity s = .failBuild ↔ s = .fail := by
  cases s <;> decide

namespace Section

theorem ofViolations?_eq_none_iff {s : Severity} {violations : List Violation} :
    ofViolations? s violations = none ↔ (Violation.pairs violations).length = 0 := by
  unfold ofViolations?
  by_cases h : (Violation.pairs violations).length = 0
  · simp [h]
  · simp [h]

theorem ofViolations?_eq_some {s : Severity} {violations : List Violation} {sec : Section}
    (h : ofViolations? s violations = some sec) :
    sec.severity = s ∧ sec.count = (Violation.pairs violations).length := by
  by_cases hzero : (Violation.pairs violations).length = 0
  · rw [ofViolations?_eq_none_iff.2 hzero] at h
    cases h
  · simp only [ofViolations?, hzero, if_false, Option.some.injEq] at h
    rw [← h]
    exact ⟨rfl, rfl⟩

end Section

namespace Report

variable {f : Findings}

theorem mem_sections {sec : Section} :
    sec ∈ (ofFindings f).sections ↔
      Section.ofViolations? sec.severity (f.violations sec.severity) = some sec := by
  unfold ofFindings
  rw [List.mem_filterMap]
  refine ⟨fun h => ?_, fun h => ⟨sec.severity, Severity.mem_all _, h⟩⟩
  obtain ⟨s, _, hs⟩ := h
  rw [(Section.ofViolations?_eq_some hs).1]
  exact hs

theorem count_of_mem_sections {sec : Section} (h : sec ∈ (ofFindings f).sections) :
    sec.count = f.count sec.severity :=
  (Section.ofViolations?_eq_some (mem_sections.1 h)).2

theorem exists_section_iff {s : Severity} :
    (∃ sec ∈ (ofFindings f).sections, sec.severity = s) ↔ 0 < f.count s := by
  have hnone : Section.ofViolations? s (f.violations s) = none ↔ f.count s = 0 :=
    Section.ofViolations?_eq_none_iff
  refine ⟨fun h => ?_, fun h => ?_⟩
  · obtain ⟨sec, hsec, rfl⟩ := h
    refine Nat.pos_of_ne_zero fun h0 => ?_
    have hsome := mem_sections.1 hsec
    rw [hnone.2 h0] at hsome
    cases hsome
  · cases hsec : Section.ofViolations? s (f.violations s) with
    | none => exact absurd (hnone.1 hsec) (Nat.ne_of_gt h)
    | some sec =>
      have hs : sec.severity = s := (Section.ofViolations?_eq_some hsec).1
      refine ⟨sec, mem_sections.2 ?_, hs⟩
      rw [hs]
      exact hsec

theorem pairwise_sections (f : Findings) :
    (ofFindings f).sections.Pairwise (·.severity < ·.severity) := by
  have hall : Severity.all.Pairwise (· < ·) := by decide
  unfold ofFindings
  rw [List.pairwise_filterMap]
  refine hall.imp fun {s t} hlt sec hsec sec' hsec' => ?_
  rw [(Section.ofViolations?_eq_some hsec).1, (Section.ofViolations?_eq_some hsec').1]
  exact hlt

theorem sections_eq_nil_iff : (ofFindings f).sections = [] ↔ f.total = 0 := by
  rw [Findings.total_eq_zero_iff, List.eq_nil_iff_forall_not_mem]
  refine ⟨fun h s => ?_, fun h sec hsec => ?_⟩
  · refine Nat.eq_zero_of_not_pos fun hpos => ?_
    obtain ⟨sec, hsec, _⟩ := exists_section_iff.2 hpos
    exact h sec hsec
  · have hpos := exists_section_iff.1 ⟨sec, hsec, rfl⟩
    rw [h] at hpos
    exact Nat.lt_irrefl 0 hpos

theorem isClean_iff : (ofFindings f).isClean = true ↔ f.total = 0 := by
  unfold isClean
  rw [List.isEmpty_iff, sections_eq_nil_iff]

theorem exists_failBuild_iff :
    (∃ sec ∈ (ofFindings f).sections, sec.action = .failBuild) ↔ 0 < f.count .fail := by
  simp only [Section.action, Action.ofSeverity_eq_failBuild_iff]
  exact exists_section_iff

theorem isSome_failure?_iff : (ofFindings f).failure?.isSome = true ↔ 0 < f.count .fail := by
  unfold failure?
  rw [Option.isSome_map, List.find?_isSome, ← exists_failBuild_iff]
  simp only [decide_eq_true_eq]

end Report

/-! ## The text and the compact lines -/

namespace Findings

/-- Unless there is nothing to report, the text ends in the summary, on a line of its own. -/
theorem exists_text_eq {f : Findings} (h : f.total ≠ 0) :
    ∃ body colour, f.text = body ++ "\n\n" ++ Colour.paint colour f.summary ++ "\n" := by
  have hne : (Report.ofFindings f).sections ≠ [] := fun hnil => h (Report.sections_eq_nil_iff.1 hnil)
  have hclean : (Report.ofFindings f).isClean = false := by
    rw [Bool.eq_false_iff]
    exact fun hclean => h (Report.isClean_iff.1 hclean)
  -- the last section ends in the blank line
  obtain ⟨sections, sec, hsections⟩ := (List.eq_nil_or_concat _).resolve_left hne
  refine ⟨String.join (sections.map fun s => s.action.label ++ ": " ++ s.message ++ "\n\n") ++
    (sec.action.label ++ ": " ++ sec.message), f.colour, ?_⟩
  simp [text, hclean, hsections, String.append_assoc]

/-- What the compact output lists: each dependency with its severity and its type, the most severe
first. -/
def entries (f : Findings) : List (Severity × String × String) :=
  Severity.all.reverse.flatMap fun s => (Violation.pairs (f.violations s)).map fun p => (s, p)

def entryLine (e : Severity × String × String) : String :=
  e.1.name ++ " " ++ e.2.1 ++ " -> " ++ e.2.2 ++ "\n"

theorem compact_eq_join {f : Findings} (h : ∀ s v, v ∈ f.violations s → v.severity = s) :
    f.compact = String.join (f.entries.map entryLine) := by
  unfold compact entries
  rw [List.map_flatMap]
  congr 1
  refine congrArg (List.flatMap · Severity.all.reverse) (funext fun s => ?_)
  rw [Violation.pairs, List.map_map, List.map_flatMap]
  refine List.flatMap_congr fun v hv => ?_
  rw [compactLines, List.map_map, h s v hv]
  rfl

theorem length_filter_entries (f : Findings) (s : Severity) :
    (f.entries.filter (·.1 = s)).length = f.count s := by
  have hbucket : ∀ t, (((Violation.pairs (f.violations t)).map fun p => (t, p)).filter
      (·.1 = s)).length = if t = s then f.count s else 0 := by
    intro t
    rw [List.filter_map, List.length_map]
    by_cases hts : t = s
    · subst hts
      simp [Function.comp_def, count]
    · simp [Function.comp_def, hts]
  unfold entries
  rw [List.filter_flatMap, List.length_flatMap]
  simp only [hbucket]
  cases s <;> simp [Severity.all]

/-! ## Asking for violations -/

section ofUsages

variable (judge : Judge) (default : Severity) (usages : List Usage)

theorem isEmpty_violations_ofUsages (s : Severity) :
    ((ofUsages judge default usages).violations s).isEmpty = true ↔
      (ofUsages judge default usages).count s = 0 := by
  simp

theorem isEmpty_ofUsages_iff :
    (ofUsages judge default usages).isEmpty = true ↔ (ofUsages judge default usages).total = 0 := by
  unfold isEmpty
  simp only [total_eq_zero_iff, List.all_eq_true, isEmpty_violations_ofUsages]
  exact ⟨fun h s => h s (Severity.mem_all s), fun h s _ => h s⟩

theorem hasAtLeast_ofUsages_iff (s : Severity) :
    (ofUsages judge default usages).hasAtLeast s = true ↔
      ∃ t, s ≤ t ∧ 0 < (ofUsages judge default usages).count t := by
  have hsome : ∀ t, ((ofUsages judge default usages).violations t).isEmpty = false ↔
      0 < (ofUsages judge default usages).count t := by
    intro t
    rw [Nat.pos_iff_ne_zero, ne_eq, ← isEmpty_violations_ofUsages, Bool.not_eq_true]
  unfold hasAtLeast
  simp only [List.any_eq_true, Bool.and_eq_true, decide_eq_true_eq, Bool.not_eq_true', hsome]
  exact ⟨fun ⟨t, _, h⟩ => ⟨t, h⟩, fun ⟨t, h⟩ => ⟨t, Severity.mem_all t, h⟩⟩

theorem hasFailures_ofUsages_iff_count :
    (ofUsages judge default usages).hasFailures = true ↔
      0 < (ofUsages judge default usages).count .fail := by
  rw [Nat.pos_iff_ne_zero, ne_eq, ← isEmpty_violations_ofUsages, Bool.not_eq_true]
  unfold hasFailures
  rw [Bool.not_eq_true']
  rfl

/-- Of the events of an analysis, one is for everyone: the counts at the end. -/
theorem filter_info_events :
    (events judge default usages).filter (·.level = .info) =
      [.judged (Ledger.ofUsages judge default usages).count
        ((ofUsages judge default usages).count .fail) ((ofUsages judge default usages).count .warn)
        ((ofUsages judge default usages).count .inform)
        ((ofUsages judge default usages).count .ignore)] := by
  have huncovered : ∀ e ∈ usages.flatMap (fun u => (u.dependencies.toList.filter fun d =>
      (judge u.typeName d).isNone).map fun d => Event.uncovered u.typeName d default),
      ¬e.level = .info := by
    intro e he hlevel
    obtain ⟨u, _, he⟩ := List.mem_flatMap.1 he
    obtain ⟨d, _, rfl⟩ := List.mem_map.1 he
    cases hlevel
  unfold events
  rw [List.filter_append, List.filter_eq_nil_iff.2 (by simpa using huncovered), List.nil_append]
  rfl

end ofUsages

/-- Whoever looks at findings sees that there are `n s` dependencies of each severity `s`. -/
structure Shows (f : Findings) (n : Severity → Nat) : Prop where
  /-- The count of a bucket. -/
  count (s : Severity) : f.count s = n s
  total : f.total = Severity.sum n
  /-- The report has a section exactly for what there is. -/
  reported (s : Severity) :
    (∃ sec ∈ (Report.ofFindings f).sections, sec.severity = s) ↔ 0 < n s
  /-- Its sections go from the least to the most severe. -/
  increasing : (Report.ofFindings f).sections.Pairwise (·.severity < ·.severity)
  /-- A section carries the number. -/
  carried (sec : Section) : sec ∈ (Report.ofFindings f).sections → sec.count = n sec.severity
  /-- Unless there is nothing, the text ends in a line with the numbers. -/
  summary : Severity.sum n ≠ 0 → ∃ body colour, f.text = body ++ "\n\n" ++
    Colour.paint colour ("Found " ++ toString (n .fail) ++ " failing, " ++ toString (n .warn)
      ++ " warned, " ++ toString (n .inform) ++ " logged and " ++ toString (n .ignore)
      ++ " ignored internal dependencies") ++ "\n"
  /-- The compact output is made of entries. -/
  compact : f.compact = String.join (f.entries.map entryLine)
  /-- There are as many entries of each severity. -/
  listed (s : Severity) : (f.entries.filter (·.1 = s)).length = n s
  /-- The findings are empty if there is nothing. -/
  isEmpty : f.isEmpty = true ↔ Severity.sum n = 0
  /-- The report is clean if there is nothing. -/
  isClean : (Report.ofFindings f).isClean = true ↔ Severity.sum n = 0
  /-- Something as severe as `s` was found. -/
  hasAtLeast (s : Severity) : f.hasAtLeast s = true ↔ ∃ t, s ≤ t ∧ 0 < n t
  /-- The check fails over anything that fails. -/
  hasFailures : f.hasFailures = true ↔ 0 < n .fail
  /-- So the report has a message to fail with. -/
  failure : (Report.ofFindings f).failure?.isSome = true ↔ 0 < n .fail
  /-- So one of its sections fails the build. -/
  failBuild : (∃ sec ∈ (Report.ofFindings f).sections, sec.action = .failBuild) ↔ 0 < n .fail

/--
**All views show one count.**

Whatever is told of an analysis, and in whatever form, the numbers are those of the different pairs
that are judged to have each severity. The one line of the log that everyone gets to see gives the
same numbers.
-/
theorem ofUsages_shows (judge : Judge) (default : Severity) (usages : List Usage) :
    (ofUsages judge default usages).Shows (Usage.tally judge default usages) ∧
      ((events judge default usages).filter (·.level = .info)).map Event.line =
        ["INFO Judged " ++ toString (Severity.sum (Usage.tally judge default usages))
          ++ " internal dependencies: "
          ++ toString (Usage.tally judge default usages .fail) ++ " fail, "
          ++ toString (Usage.tally judge default usages .warn) ++ " warn, "
          ++ toString (Usage.tally judge default usages .inform) ++ " inform, "
          ++ toString (Usage.tally judge default usages .ignore) ++ " ignore"] := by
  have hcount : (ofUsages judge default usages).count = Usage.tally judge default usages :=
    funext (count_ofUsages judge default usages)
  have hledger : (Ledger.ofUsages judge default usages).count =
      (ofUsages judge default usages).total := by
    rw [Ledger.count_ofUsages, total_ofUsages]
  -- the tally is the count of the buckets, and what is left is about these
  rw [← hcount]
  have hshows : (ofUsages judge default usages).Shows (ofUsages judge default usages).count := {
    count := fun _ => rfl
    total := rfl
    reported := fun _ => Report.exists_section_iff
    increasing := Report.pairwise_sections _
    carried := fun _ => Report.count_of_mem_sections
    summary := exists_text_eq
    compact := compact_eq_join fun _ _ => severity_of_mem_violations_ofUsages
    listed := length_filter_entries _
    isEmpty := isEmpty_ofUsages_iff judge default usages
    isClean := Report.isClean_iff
    hasAtLeast := hasAtLeast_ofUsages_iff judge default usages
    hasFailures := hasFailures_ofUsages_iff_count judge default usages
    failure := Report.isSome_failure?_iff
    failBuild := Report.exists_failBuild_iff }
  refine ⟨hshows, ?_⟩
  rw [filter_info_events, hledger]
  rfl

end Findings

end ApiGate
