import ApiGate.Output
import ApiGate.Proofs.Partition

/-!
# Findings depend on the pairs alone

The same facts can be arranged in many ways: the usages in another order, a type split over several
usages or put into one, a pair given twice, a type that depends on nothing added. None of this can
be seen in the findings, because findings have one form for each set of pairs:

* a bucket is in strictly increasing order of its types, so it is known by its members;
* what its members are is said in terms of the pairs (`Findings.mem_violations_ofUsages`).

On the way, the ledger may well be different: a type that depends on nothing has a table in it. So
the two analyses are not compared step by step, but only by what comes out of them.
-/

namespace ApiGate

/-- A list in strictly increasing order of some text is known by its members. -/
theorem eq_of_increasing {α : Type} {key : α → String} {l l' : List α}
    (hl : l.Pairwise (key · < key ·)) (hl' : l'.Pairwise (key · < key ·))
    (h : ∀ a, a ∈ l ↔ a ∈ l') : l = l' := by
  have hnodup : ∀ {l : List α}, l.Pairwise (key · < key ·) → l.Nodup :=
    fun hl => hl.imp fun hlt heq => String.ne_of_lt hlt (congrArg key heq)
  have hperm := (List.perm_ext_iff_of_nodup (hnodup hl) (hnodup hl')).2 h
  -- neither of two members can come before the other and after it
  exact hperm.eq_of_pairwise (fun a b _ _ hab hba => absurd hba (String.lt_asymm hab)) hl hl'

/-- Two lists of usages give the same pairs, however they arrange them. -/
def Usage.SamePairs (usages usages' : List Usage) : Prop :=
  ∀ t d, (t, d) ∈ pairs usages ↔ (t, d) ∈ pairs usages'

namespace Findings

@[ext] theorem ext_violations {f g : Findings} (h : ∀ s, f.violations s = g.violations s) :
    f = g := by
  obtain ⟨ignored, informed, warned, failed⟩ := f
  obtain ⟨ignored', informed', warned', failed'⟩ := g
  have hignored : ignored = ignored' := h .ignore
  have hinformed : informed = informed' := h .inform
  have hwarned : warned = warned' := h .warn
  have hfailed : failed = failed' := h .fail
  rw [hignored, hinformed, hwarned, hfailed]

/-- **A bucket is known by the pairs it lists.** Neither the judge nor the usages are seen in it. -/
theorem violations_eq_of_pairs {judge judge' : Judge} {default default' : Severity}
    {usages usages' : List Usage} {s : Severity}
    (h : ∀ t d, (t, d) ∈ Violation.pairs ((ofUsages judge default usages).violations s) ↔
      (t, d) ∈ Violation.pairs ((ofUsages judge' default' usages').violations s)) :
    (ofUsages judge default usages).violations s =
      (ofUsages judge' default' usages').violations s := by
  have hmem : ∀ v, v ∈ (ofUsages judge default usages).violations s ↔
      v ∈ (ofUsages judge' default' usages').violations s := by
    intro v
    simp only [mem_violations_ofUsages, ← mem_pairs_violations_ofUsages, h v.typeName]
  exact eq_of_increasing (pairwise_violations_ofUsages judge default usages s)
    (pairwise_violations_ofUsages judge' default' usages' s) hmem

section Regrouping

variable (judge : Judge) (default : Severity) {usages usages' : List Usage}

theorem violations_eq_of_samePairs (h : Usage.SamePairs usages usages') (s : Severity) :
    (ofUsages judge default usages).violations s =
      (ofUsages judge default usages').violations s := by
  refine violations_eq_of_pairs fun t d => ?_
  simp [h t d]

/-- What was analysed can be read off: a pair was given iff some bucket lists it. -/
theorem mem_pairs_iff_listed {t d : String} :
    (t, d) ∈ Usage.pairs usages ↔
      ∃ s, (t, d) ∈ Violation.pairs ((ofUsages judge default usages).violations s) := by
  simp

theorem samePairs_of_eq
    (h : ofUsages judge default usages = ofUsages judge default usages') :
    Usage.SamePairs usages usages' := by
  intro t d
  rw [mem_pairs_iff_listed judge default, mem_pairs_iff_listed judge default, h]

end Regrouping

/--
**Findings depend on the pairs alone.**

Two lists of usages have the same findings exactly if they give the same pairs. Then they also have
the same report, and in each form the same output.
-/
theorem ofUsages_eq_iff_samePairs (judge : Judge) (default : Severity)
    (usages usages' : List Usage) :
    (ofUsages judge default usages = ofUsages judge default usages' ↔
      Usage.SamePairs usages usages') ∧
    (Usage.SamePairs usages usages' →
      Report.ofFindings (ofUsages judge default usages) =
        Report.ofFindings (ofUsages judge default usages') ∧
      ∀ format, (ofUsages judge default usages).write default format =
        (ofUsages judge default usages').write default format) := by
  have heq : Usage.SamePairs usages usages' →
      ofUsages judge default usages = ofUsages judge default usages' := fun h =>
    ext_violations (violations_eq_of_samePairs judge default h)
  refine ⟨⟨samePairs_of_eq judge default, heq⟩, fun h => ?_⟩
  rw [heq h]
  exact ⟨rfl, fun _ => rfl⟩

/-- Two types, each with all it depends on. -/
def plainUsages : List Usage :=
  [.ofList "a.A" ["x.X", "y.Y"], .ofList "b.B" ["x.X"]]

/-- The same two types in another order, one of them split up with an overlap, and a third one that
depends on nothing. -/
def scatteredUsages : List Usage :=
  [.ofList "a.A" ["y.Y"], .ofList "c.C" [], .ofList "b.B" ["x.X"], .ofList "a.A" ["y.Y", "x.X"]]

/-- A judge that only warns of one dependency. -/
def warnOfX : Judge := fun _ d => if d = "x.X" then some .warn else none

theorem ofUsages_eq_iff_samePairs_scattered :
    Usage.SamePairs plainUsages scatteredUsages ∧
      ofUsages warnOfX .fail plainUsages = ofUsages warnOfX .fail scatteredUsages ∧
      (ofUsages warnOfX .fail scatteredUsages).write .fail .compact =
        "FAIL a.A -> y.Y\nWARN a.A -> x.X\nWARN b.B -> x.X\n" := by
  have hplain : Usage.pairs plainUsages = [("a.A", "x.X"), ("a.A", "y.Y"), ("b.B", "x.X")] := by
    decide +kernel
  have hscattered : Usage.pairs scatteredUsages =
      [("a.A", "y.Y"), ("b.B", "x.X"), ("a.A", "x.X"), ("a.A", "y.Y")] := by
    decide +kernel
  have hsame : Usage.SamePairs plainUsages scatteredUsages := by
    intro t d
    rw [hplain, hscattered]
    simp only [List.mem_cons, List.not_mem_nil, or_false]
    grind
  have hwritten : (ofUsages warnOfX .fail plainUsages).write .fail .compact =
      "FAIL a.A -> y.Y\nWARN a.A -> x.X\nWARN b.B -> x.X\n" := by
    decide +kernel
  have hlaw := ofUsages_eq_iff_samePairs warnOfX .fail plainUsages scatteredUsages
  exact ⟨hsame, hlaw.1.2 hsame, ((hlaw.2 hsame).2 .compact).symm.trans hwritten⟩

end Findings

end ApiGate
