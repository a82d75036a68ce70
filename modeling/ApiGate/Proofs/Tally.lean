import ApiGate.Proofs.Partition
import Mathlib.Algebra.BigOperators.Group.Finset.Basic

/-!
# Counting pairs

How many dependencies are there of a severity? The answer is a number of *different* pairs, however
often a pair is given. `Usage.tally` says so by the set of the pairs, and there are two counts that
have to come to the same:

* a bucket of the findings counts what its violations list, one violation after another. A pair is
  listed by one violation only and there only once, so nothing counts twice (`count_ofUsages`);
* the ledger counts while the pairs come in, and has to notice that it has a pair already. Since it
  looks under the severity of the pair, it does (`Ledger.count_ofUsages`).

No violation is empty. So a bucket is without violations exactly if its count is 0, and whoever asks
for violations gets the same answer as whoever asks for a number.
-/

namespace ApiGate

namespace Usage

/-- The number of different pairs that are judged to have a severity. -/
def tally (judge : Judge) (default : Severity) (usages : List Usage) (s : Severity) : Nat :=
  ((pairs usages).toFinset.filter fun p => judge.judgeOr p.1 p.2 default = s).card

/-- Every pair has one of the four severities. -/
theorem card_pairs (judge : Judge) (default : Severity) (usages : List Usage) :
    (pairs usages).toFinset.card =
      tally judge default usages .ignore + tally judge default usages .inform +
        tally judge default usages .warn + tally judge default usages .fail := by
  have hmaps : Set.MapsTo (fun p : String × String => judge.judgeOr p.1 p.2 default)
      (pairs usages).toFinset (Severity.all.toFinset : Finset Severity) :=
    fun p _ => List.mem_toFinset.2 (Severity.mem_all _)
  rw [Finset.card_eq_sum_card_fiberwise hmaps]
  simp [Severity.all, tally, Nat.add_assoc]

end Usage

/-! ## The count of a bucket -/

/-- A type has one violation at most and lists a dependency once, so no pair is listed twice. -/
theorem Violation.nodup_pairs {violations : List Violation}
    (h : violations.Pairwise (·.typeName < ·.typeName)) : (pairs violations).Nodup := by
  have hsplit : ∀ v w : Violation, v.typeName < w.typeName →
      ∀ p ∈ v.dependencies.toList.map fun d => (v.typeName, d),
        ∀ q ∈ w.dependencies.toList.map fun d => (w.typeName, d), p ≠ q := by
    intro v w hlt p hp q hq hpq
    obtain ⟨d, _, rfl⟩ := List.mem_map.1 hp
    obtain ⟨e, _, rfl⟩ := List.mem_map.1 hq
    exact String.ne_of_lt hlt (congrArg Prod.fst hpq)
  refine List.pairwise_flatMap.2 ⟨fun v _ => ?_, h.imp fun {v w} => hsplit v w⟩
  -- the dependencies of one violation are in increasing order
  refine List.pairwise_map.2 (v.dependencies.sorted.imp fun {d e} hlt hde => ?_)
  exact String.ne_of_lt hlt (congrArg Prod.snd hde)

namespace Findings

section ofUsages

variable (judge : Judge) (default : Severity) (usages : List Usage)

/-- **A bucket counts each pair of its severity once.** -/
theorem count_ofUsages (s : Severity) :
    (ofUsages judge default usages).count s = Usage.tally judge default usages s := by
  have hnodup := Violation.nodup_pairs (pairwise_violations_ofUsages judge default usages s)
  have hset : (Violation.pairs ((ofUsages judge default usages).violations s)).toFinset =
      (Usage.pairs usages).toFinset.filter fun p => judge.judgeOr p.1 p.2 default = s := by
    ext ⟨t, d⟩
    simp
  unfold count Usage.tally
  rw [← hset, List.toFinset_card_of_nodup hnodup]

theorem total_ofUsages :
    (ofUsages judge default usages).total = (Usage.pairs usages).toFinset.card := by
  unfold total
  simp only [count_ofUsages]
  exact (Usage.card_pairs judge default usages).symm

/-- No violation is empty, so a bucket that counts nothing has no violations. -/
@[simp] theorem violations_ofUsages_eq_nil_iff (s : Severity) :
    (ofUsages judge default usages).violations s = [] ↔
      (ofUsages judge default usages).count s = 0 := by
  refine ⟨fun h => by rw [count, h]; rfl, fun h => ?_⟩
  refine List.eq_nil_iff_forall_not_mem.2 fun v hv => ?_
  obtain ⟨_, ⟨d, hd⟩, _⟩ := mem_violations_ofUsages.1 hv
  have hmem : (v.typeName, d) ∈ Violation.pairs ((ofUsages judge default usages).violations s) :=
    Violation.mem_pairs.2 ⟨v, hv, rfl, hd⟩
  rw [List.length_eq_zero_iff.1 h] at hmem
  exact List.not_mem_nil hmem

end ofUsages

end Findings

/-! ## The count of the ledger -/

namespace Ledger

@[simp] theorem count_openType (l : Ledger) (t : String) : (l.openType t).count = l.count := rfl

/-- A pair that is entered counts unless it has been entered before. -/
theorem Books.count_enter {judge : Judge} {default : Severity} {l : Ledger}
    {pairs : List (String × String)} (h : l.Books judge default pairs) (t d : String) :
    (l.enter t d (judge.judgeOr t d default)).count =
      if (t, d) ∈ pairs then l.count else l.count + 1 := by
  have hthere : d ∈ (l.grades t).graded (judge.judgeOr t d default) ↔ (t, d) ∈ pairs := by
    rw [h.booked]
    exact and_iff_left rfl
  unfold Ledger.enter
  simp only [hthere]

/-- **The ledger counts each pair once.** -/
theorem count_ofUsages (judge : Judge) (default : Severity) (usages : List Usage) :
    (ofUsages judge default usages).count = (Usage.pairs usages).toFinset.card := by
  -- what is counted is known only of a ledger that holds the pairs
  have hrun : (ofUsages judge default usages).Books judge default (Usage.pairs usages) ∧
      (ofUsages judge default usages).count = (Usage.pairs usages).toFinset.card := by
    refine ofUsages_induction (P := fun l pairs => l.Books judge default pairs ∧
      l.count = pairs.toFinset.card) ⟨Books.empty, rfl⟩ ?_ ?_ usages
    · intro l pairs t h
      exact ⟨h.1.openType t, by simpa using h.2⟩
    · intro l pairs t d h
      refine ⟨h.1.enter t d, ?_⟩
      by_cases hmem : (t, d) ∈ pairs
      · simp [h.1.count_enter, h.2, hmem]
      · simp [h.1.count_enter, h.2, hmem]
  exact hrun.2

end Ledger

end ApiGate
