import ApiGate.Findings
import ApiGate.Proofs.Booking

/-!
# Findings are a partition

Every pair of a type and a dependency that goes into an analysis comes out once: in one violation,
in the bucket of its severity. Nothing else comes out.

The violations are read off a ledger, and of the ledger `Ledger.Books` says all there is to say.
What is left is that reading loses nothing:

* a violation is in the ledger iff it carries what stands under its type and severity, and that is
  not empty;
* the violations come in the order of their types and then of their severities, so those of one
  severity are in increasing order of the types.
-/

namespace ApiGate

/-- `v` is read off before `w`. -/
def Violation.Precedes (v w : Violation) : Prop :=
  v.typeName < w.typeName ∨ (v.typeName = w.typeName ∧ v.severity < w.severity)

namespace Ledger

theorem mem_violations {l : Ledger} {v : Violation} :
    v ∈ l.violations ↔
      ∃ g, l.types.get? v.typeName = some g ∧ g.get? v.severity = some v.dependencies := by
  simp only [violations, List.mem_flatMap, List.mem_map, Prod.exists, Table.mem_entries]
  constructor
  · intro h
    obtain ⟨t, g, ht, s, ds, hs, rfl⟩ := h
    exact ⟨g, ht, hs⟩
  · intro h
    obtain ⟨g, ht, hs⟩ := h
    exact ⟨v.typeName, g, ht, v.severity, v.dependencies, hs, rfl⟩

theorem pairwise_violations (l : Ledger) : l.violations.Pairwise Violation.Precedes := by
  unfold violations
  rw [List.pairwise_flatMap]
  constructor
  · -- one type: by severity
    intro e _
    rw [List.pairwise_map]
    exact e.2.sorted.imp fun h => Or.inr ⟨rfl, h⟩
  · -- two types: whatever the severities are
    refine l.types.sorted.imp fun {e f} h => ?_
    intro v hv w hw
    obtain ⟨_, _, rfl⟩ := List.mem_map.1 hv
    obtain ⟨_, _, rfl⟩ := List.mem_map.1 hw
    exact Or.inl h

theorem Books.mem_violations {judge : Judge} {default : Severity} {l : Ledger}
    {pairs : List (String × String)} (h : l.Books judge default pairs) {v : Violation} :
    v ∈ l.violations ↔
      (l.grades v.typeName).graded v.severity = v.dependencies ∧ ∃ d, d ∈ v.dependencies := by
  rw [Ledger.mem_violations, ← (h.filled v.typeName).get?_eq_some_iff]
  cases ht : l.types.get? v.typeName with
  | some g => simp [grades_of_get? ht]
  | none =>
    -- no table of its own is as good as an empty one
    simp [grades, ht]

end Ledger

namespace Findings

@[simp] theorem violations_empty (s : Severity) : empty.violations s = [] := by
  cases s <;> rfl

@[simp] theorem violations_add (f : Findings) (v : Violation) (s : Severity) :
    (f.add v).violations s = f.violations s ++ if v.severity = s then [v] else [] := by
  unfold add
  cases v.severity <;> cases s <;> simp [violations]

@[simp] theorem violations_foldl_add (vs : List Violation) (f : Findings) (s : Severity) :
    (vs.foldl add f).violations s = f.violations s ++ vs.filter (·.severity = s) := by
  induction vs generalizing f with
  | nil => simp
  | cons v rest ih =>
    by_cases hv : v.severity = s
    · simp [ih, hv]
    · simp [ih, hv]

/-- Each bucket is the violations of its severity, in the order they come in. -/
@[simp] theorem violations_ofViolations (vs : List Violation) (s : Severity) :
    (ofViolations vs).violations s = vs.filter (·.severity = s) := by
  simp [ofViolations]

section ofUsages

variable {judge : Judge} {default : Severity} {usages : List Usage}

theorem mem_violations_ofUsages {s : Severity} {v : Violation} :
    v ∈ (ofUsages judge default usages).violations s ↔
      v.severity = s ∧ (∃ d, d ∈ v.dependencies) ∧
        ∀ d, d ∈ v.dependencies ↔
          (v.typeName, d) ∈ Usage.pairs usages ∧ judge.judgeOr v.typeName d default = s := by
  have hbooks := Ledger.books_ofUsages judge default usages
  simp only [ofUsages, violations_ofViolations, List.mem_filter, decide_eq_true_eq,
    hbooks.mem_violations]
  constructor
  · intro h
    obtain ⟨⟨hds, hne⟩, hs⟩ := h
    refine ⟨hs, hne, fun d => ?_⟩
    rw [← hds, ← hs]
    exact hbooks.booked v.typeName d v.severity
  · intro h
    obtain ⟨hs, hne, hds⟩ := h
    refine ⟨⟨TextSet.ext fun d => ?_, hne⟩, hs⟩
    rw [hds, hs]
    exact hbooks.booked v.typeName d s

theorem severity_of_mem_violations_ofUsages {s : Severity} {v : Violation}
    (h : v ∈ (ofUsages judge default usages).violations s) : v.severity = s :=
  (mem_violations_ofUsages.1 h).1

theorem pairwise_violations_ofUsages (judge : Judge) (default : Severity) (usages : List Usage)
    (s : Severity) :
    ((ofUsages judge default usages).violations s).Pairwise (·.typeName < ·.typeName) := by
  unfold ofUsages
  rw [violations_ofViolations]
  have hpairwise := (Ledger.ofUsages judge default usages).pairwise_violations
  refine (hpairwise.filter _).imp_of_mem fun {v w} hv hw h => ?_
  rcases h with h | h
  · exact h
  · -- of one severity, neither comes before the other by it
    have hvs : v.severity = s := of_decide_eq_true (List.mem_filter.1 hv).2
    have hws : w.severity = s := of_decide_eq_true (List.mem_filter.1 hw).2
    rw [hvs, hws] at h
    exact absurd h.2 (Ordered.irrefl s)

/-- There is one violation at most for a type and a severity. -/
theorem eq_of_mem_violations_ofUsages {s : Severity} {v w : Violation}
    (hv : v ∈ (ofUsages judge default usages).violations s)
    (hw : w ∈ (ofUsages judge default usages).violations s) (h : v.typeName = w.typeName) :
    v = w := by
  obtain ⟨hvs, _, hvd⟩ := mem_violations_ofUsages.1 hv
  obtain ⟨hws, _, hwd⟩ := mem_violations_ofUsages.1 hw
  have hdependencies : v.dependencies = w.dependencies := by
    ext d
    rw [hvd, hwd, h]
  exact Violation.ext h hdependencies (hvs.trans hws.symm)

/-- What is entered is listed, under its severity. -/
theorem exists_violation_of_mem_pairs (judge : Judge) (default : Severity) {t d : String}
    (h : (t, d) ∈ Usage.pairs usages) :
    ∃ v ∈ (ofUsages judge default usages).violations (judge.judgeOr t d default),
      v.typeName = t ∧ d ∈ v.dependencies := by
  have hbooks := Ledger.books_ofUsages judge default usages
  let ds := ((Ledger.ofUsages judge default usages).grades t).graded (judge.judgeOr t d default)
  have hd : d ∈ ds := (hbooks.booked t d _).2 ⟨h, rfl⟩
  refine ⟨⟨t, ds, judge.judgeOr t d default⟩, ?_, rfl, hd⟩
  rw [mem_violations_ofUsages]
  exact ⟨rfl, ⟨d, hd⟩, fun e => hbooks.booked t e _⟩

/-- A bucket lists exactly the pairs that are judged to have its severity. -/
@[simp] theorem mem_pairs_violations_ofUsages {s : Severity} {t d : String} :
    (t, d) ∈ Violation.pairs ((ofUsages judge default usages).violations s) ↔
      (t, d) ∈ Usage.pairs usages ∧ judge.judgeOr t d default = s := by
  rw [Violation.mem_pairs]
  constructor
  · intro h
    obtain ⟨v, hv, rfl, hd⟩ := h
    exact ((mem_violations_ofUsages.1 hv).2.2 d).1 hd
  · intro h
    obtain ⟨hpair, rfl⟩ := h
    exact exists_violation_of_mem_pairs judge default hpair

theorem hasFailures_ofUsages_iff :
    (ofUsages judge default usages).hasFailures = true ↔
      ∃ t d, (t, d) ∈ Usage.pairs usages ∧ judge.judgeOr t d default = .fail := by
  have hfailed : (ofUsages judge default usages).hasFailures = true ↔
      ∃ v, v ∈ (ofUsages judge default usages).violations .fail := by
    unfold hasFailures violations
    rw [Bool.not_eq_true', List.isEmpty_eq_false_iff_exists_mem]
  rw [hfailed]
  constructor
  · intro h
    obtain ⟨v, hv⟩ := h
    obtain ⟨_, ⟨d, hd⟩, hds⟩ := mem_violations_ofUsages.1 hv
    exact ⟨v.typeName, d, (hds d).1 hd⟩
  · intro h
    obtain ⟨t, d, hpair, hs⟩ := h
    obtain ⟨v, hv, _⟩ := exists_violation_of_mem_pairs judge default hpair
    rw [hs] at hv
    exact ⟨v, hv⟩

end ofUsages

/-- A violation of a bucket lists a pair. -/
structure Lists (f : Findings) (s : Severity) (v : Violation) (t d : String) : Prop where
  mem : v ∈ f.violations s
  typeName : v.typeName = t
  dependency : d ∈ v.dependencies

/-- Findings are what comes of usages: each pair once, where it belongs, and nothing else. -/
structure Partitions (f : Findings) (judge : Judge) (default : Severity) (usages : List Usage) :
    Prop where
  /-- Each pair is listed by one violation of one bucket, and that is the one of its severity. -/
  placed (t d : String) : (t, d) ∈ Usage.pairs usages →
    ∃ v, f.Lists (judge.judgeOr t d default) v t d ∧
      ∀ s w, f.Lists s w t d → s = judge.judgeOr t d default ∧ w = v
  /-- No other pair is listed. -/
  justified (s : Severity) (v : Violation) (t d : String) :
    f.Lists s v t d → (t, d) ∈ Usage.pairs usages
  /-- No violation is empty. -/
  inhabited (s : Severity) (v : Violation) : v ∈ f.violations s → ∃ d, d ∈ v.dependencies
  /-- A violation carries the severity of its bucket. -/
  severity (s : Severity) (v : Violation) : v ∈ f.violations s → v.severity = s
  /-- A bucket is in increasing order of the types. -/
  increasing (s : Severity) : (f.violations s).Pairwise (·.typeName < ·.typeName)
  /-- A bucket has one violation at most for a type. -/
  single (s : Severity) (v w : Violation) :
    v ∈ f.violations s → w ∈ f.violations s → v.typeName = w.typeName → v = w

/--
**Findings are a partition of the pairs.**

No pair gets lost and none is made up, whatever the judge says and however the usages are arranged:
a type may come many times, or with nothing.
-/
theorem ofUsages_partitions (judge : Judge) (default : Severity) (usages : List Usage) :
    (ofUsages judge default usages).Partitions judge default usages where
  placed t d h := by
    obtain ⟨v, hv, ht, hd⟩ := exists_violation_of_mem_pairs judge default h
    refine ⟨v, ⟨hv, ht, hd⟩, fun s w hlists => ?_⟩
    -- whatever bucket lists the pair, it is judged so
    have hw := (mem_violations_ofUsages.1 hlists.mem).2.2 d
    rw [hlists.typeName] at hw
    have hs : s = judge.judgeOr t d default := (hw.1 hlists.dependency).2.symm
    subst hs
    refine ⟨rfl, ?_⟩
    exact eq_of_mem_violations_ofUsages hlists.mem hv (hlists.typeName.trans ht.symm)
  justified s v t d h := by
    have hv := (mem_violations_ofUsages.1 h.mem).2.2 d
    rw [h.typeName] at hv
    exact (hv.1 h.dependency).1
  inhabited s v h := (mem_violations_ofUsages.1 h).2.1
  severity s v h := severity_of_mem_violations_ofUsages h
  increasing s := pairwise_violations_ofUsages judge default usages s
  single s v w hv hw h := eq_of_mem_violations_ofUsages hv hw h

end Findings

end ApiGate
