import ApiGate.Proofs.Agreement

/-!
# Conflicts and the order of rules

Making a judge fails over two rules for one pair, and the failure names two. This module says which,
by their places in the list: a rule *repeats* a rule that stands before it and has the same pair.

* Making succeeds exactly if nothing is repeated. Otherwise the conflicting rule is the first that
  repeats one, and the existing rule is the one that it repeats; there is only one, since before the
  first repetition every pair stands once (`conflict_iff_repeats`).
* Which rules a failure names depends on their order, and nothing else does. Rules in another order
  make a judge as well or as little, and the judges give the same answers (`order_irrelevant`).

Neither kind of judge keeps the places of its rules. The scan compares rules; the index only finds
the place of a pair taken, and what it reports is put together of the new rule and the severity
there. Both follow the one search `Scan.clash?`, so it is enough to say what that finds.
-/

namespace ApiGate

/-- The rule at `j` has the pair of the rule at `i`, which stands before it. -/
def Repeats (rules : List Rule) (i j : Nat) : Prop :=
  i < j ∧ ∃ r s, rules[i]? = some r ∧ rules[j]? = some s ∧ r.samePair s = true

theorem consistent_iff_not_repeats {rules : List Rule} :
    Consistent rules ↔ ∀ i j, ¬Repeats rules i j := by
  unfold Consistent
  rw [List.pairwise_iff_getElem]
  constructor
  · intro h i j hrepeats
    obtain ⟨hij, r, s, hr, hs, hpair⟩ := hrepeats
    obtain ⟨hi, rfl⟩ := List.getElem?_eq_some_iff.1 hr
    obtain ⟨hj, rfl⟩ := List.getElem?_eq_some_iff.1 hs
    exact h i j hi hj hij hpair
  · intro h i j hi hj hij hpair
    exact h i j ⟨hij, _, _, List.getElem?_eq_getElem hi, List.getElem?_eq_getElem hj, hpair⟩

namespace Conflict

/-- A conflict is about the rules at `i` and `j`, and these are the first that clash. -/
structure IsFirst (c : Conflict) (rules : List Rule) (i j : Nat) : Prop where
  existing : rules[i]? = some c.existing
  conflicting : rules[j]? = some c.conflicting
  repeats : Repeats rules i j
  /-- No rule before the one at `j` repeats a rule. -/
  first : ∀ k l, Repeats rules k l → j ≤ l
  /-- The rule at `j` repeats no other rule. -/
  only : ∀ k, Repeats rules k j → k = i

theorem IsFirst.unique {rules : List Rule} {c c' : Conflict} {i j i' j' : Nat}
    (h : c.IsFirst rules i j) (h' : c'.IsFirst rules i' j') : c = c' := by
  have hj : j = j' := Nat.le_antisymm (h.first i' j' h'.repeats) (h'.first i j h.repeats)
  subst hj
  have hi : i = i' := h'.only i h.repeats
  subst hi
  have hexisting : c.existing = c'.existing :=
    Option.some.inj (h.existing.symm.trans h'.existing)
  have hconflicting : c.conflicting = c'.conflicting :=
    Option.some.inj (h.conflicting.symm.trans h'.conflicting)
  cases c
  cases c'
  rw [mk.injEq]
  exact ⟨hexisting, hconflicting⟩

end Conflict

/-! ## What the search finds -/

/-- The search stops at a rule that repeats one from before; up to there it has found none. -/
theorem Scan.clash?_eq_some {earlier rest : List Rule} {c : Conflict}
    (h : Scan.clash? earlier rest = some c) :
    ∃ passed left, rest = passed ++ c.conflicting :: left ∧ Scan.clash? earlier passed = none ∧
      (earlier ++ passed).find? (Rule.samePair · c.conflicting) = some c.existing := by
  induction rest generalizing earlier with
  | nil => cases h
  | cons r rest ih =>
    simp only [Scan.clash?] at h
    cases hf : earlier.find? (Rule.samePair · r) with
    | some e =>
      rw [hf] at h
      cases h
      exact ⟨[], rest, rfl, rfl, by rw [List.append_nil]; exact hf⟩
    | none =>
      -- the search goes on with `r` among the earlier rules
      rw [hf] at h
      obtain ⟨passed, left, hrest, hnone, hfind⟩ := ih h
      refine ⟨r :: passed, left, by rw [hrest]; rfl, ?_, ?_⟩
      · simp only [Scan.clash?, hf]
        exact hnone
      · rw [List.append_assoc, List.singleton_append] at hfind
        exact hfind

/-- Where the rules passed over are consistent and the next has the pair of one of them, the two are
the first that clash. -/
theorem Conflict.isFirst_of_passed {passed left : List Rule} {c : Conflict} {i : Nat}
    (hcons : Consistent passed) (hi : passed[i]? = some c.existing)
    (hpair : c.existing.samePair c.conflicting = true) :
    c.IsFirst (passed ++ c.conflicting :: left) i passed.length := by
  have hlt : i < passed.length := (List.getElem?_eq_some_iff.1 hi).1
  have hpassed : ∀ {k : Nat}, k < passed.length →
      (passed ++ c.conflicting :: left)[k]? = passed[k]? := fun hk => List.getElem?_append_left hk
  have hnext : (passed ++ c.conflicting :: left)[passed.length]? = some c.conflicting := by
    rw [List.getElem?_append_right (Nat.le_refl _), Nat.sub_self, List.getElem?_cons_zero]
  have hfree := consistent_iff_not_repeats.1 hcons
  have hexisting : (passed ++ c.conflicting :: left)[i]? = some c.existing :=
    (hpassed hlt).trans hi
  refine ⟨hexisting, hnext, ⟨hlt, _, _, hexisting, hnext, hpair⟩, ?_, ?_⟩
  · -- a repetition further left would be one among the rules passed over
    intro k l hrepeats
    obtain ⟨hkl, r, s, hr, hs, hrs⟩ := hrepeats
    refine Nat.le_of_not_lt fun hl => hfree k l ⟨hkl, r, s, ?_, ?_, hrs⟩
    · rw [← hpassed (Nat.lt_trans hkl hl)]
      exact hr
    · rw [← hpassed hl]
      exact hs
  · -- two rules with the pair of one have one pair, so they stand at one place
    intro k hrepeats
    obtain ⟨hk, r, s, hr, hs, hrs⟩ := hrepeats
    rw [hpassed hk] at hr
    rw [hnext] at hs
    cases hs
    rcases Nat.lt_trichotomy k i with hki | hki | hik
    · have hsame := Rule.samePair_trans hrs (Rule.samePair_symm hpair)
      exact absurd ⟨hki, r, c.existing, hr, hi, hsame⟩ (hfree k i)
    · exact hki
    · have hsame := Rule.samePair_trans hpair (Rule.samePair_symm hrs)
      exact absurd ⟨hik, c.existing, r, hi, hr, hsame⟩ (hfree i k)

/-- **The search finds the first clash, and only that.** -/
theorem Scan.clash?_eq_some_iff {rules : List Rule} {c : Conflict} :
    Scan.clash? [] rules = some c ↔ ∃ i j, c.IsFirst rules i j := by
  have hfound : ∀ {c : Conflict}, Scan.clash? [] rules = some c → ∃ i j, c.IsFirst rules i j := by
    intro c h
    obtain ⟨passed, left, hrules, hnone, hfind⟩ := Scan.clash?_eq_some h
    rw [List.nil_append] at hfind
    obtain ⟨i, hi⟩ := List.mem_iff_getElem?.1 (List.mem_of_find?_eq_some hfind)
    have hpair : c.existing.samePair c.conflicting = true := by simpa using List.find?_some hfind
    rw [hrules]
    exact ⟨i, passed.length,
      Conflict.isFirst_of_passed (Scan.clash?_eq_none_iff.1 hnone).2 hi hpair⟩
  constructor
  · exact hfound
  · intro h
    obtain ⟨i, j, hfirst⟩ := h
    cases hc : Scan.clash? [] rules with
    | none =>
      have hcons := (Scan.clash?_eq_none_iff.1 hc).2
      exact absurd hfirst.repeats (consistent_iff_not_repeats.1 hcons i j)
    | some c' =>
      obtain ⟨i', j', hfirst'⟩ := hfound hc
      rw [hfirst'.unique hfirst]

theorem Index.ofRules_eq_error_iff {rules : List Rule} {c : Conflict} :
    Index.ofRules rules = .error c ↔ Scan.clash? [] rules = some c := by
  have hspec := Index.ofRules_spec rules
  cases hc : Scan.clash? [] rules with
  | some c' =>
    rw [hc] at hspec
    rw [hspec, Except.error.injEq, Option.some.injEq]
  | none =>
    rw [hc] at hspec
    obtain ⟨index, hindex, _⟩ := hspec
    simp [hindex]

theorem Scan.ofRules_eq_error_iff {rules : List Rule} {c : Conflict} :
    Scan.ofRules rules = .error c ↔ Scan.clash? [] rules = some c := by
  unfold Scan.ofRules
  cases Scan.clash? [] rules <;> simp

theorem Scan.exists_ofRules_iff {rules : List Rule} :
    (∃ scan, Scan.ofRules rules = .ok scan) ↔ Consistent rules := by
  constructor
  · intro h
    obtain ⟨scan, hscan⟩ := h
    exact (Scan.ofRules_eq_ok_iff.1 hscan).1
  · intro hcons
    exact ⟨⟨rules⟩, Scan.ofRules_eq_ok_iff.2 ⟨hcons, rfl⟩⟩

/-- **Conflicts are detected exactly.** Either kind of judge can be made exactly if no rule repeats
an earlier one. If one does, making fails, with the first rule that repeats one and the one earlier
rule that it repeats. -/
theorem conflict_iff_repeats (rules : List Rule) :
    ((∃ index, Index.ofRules rules = .ok index) ↔ ∀ i j, ¬Repeats rules i j) ∧
    ((∃ scan, Scan.ofRules rules = .ok scan) ↔ ∀ i j, ¬Repeats rules i j) ∧
    ∀ c, (Index.ofRules rules = .error c ↔ ∃ i j, c.IsFirst rules i j) ∧
      (Scan.ofRules rules = .error c ↔ ∃ i j, c.IsFirst rules i j) := by
  refine ⟨?_, ?_, fun c => ⟨?_, ?_⟩⟩
  · rw [Index.exists_ofRules_iff, consistent_iff_not_repeats]
  · rw [Scan.exists_ofRules_iff, consistent_iff_not_repeats]
  · rw [Index.ofRules_eq_error_iff, Scan.clash?_eq_some_iff]
  · rw [Scan.ofRules_eq_error_iff, Scan.clash?_eq_some_iff]

/-! ## Rules in another order -/

section Reordered

variable {rules rules' : List Rule}

theorem consistent_iff_of_perm (h : rules.Perm rules') : Consistent rules ↔ Consistent rules' :=
  h.pairwise_iff fun hrs hsr => hrs (Rule.samePair_symm hsr)

theorem Rule.IsLongest.of_perm (h : rules.Perm rules') {r : Rule} {q x : String}
    (hr : r.IsLongest rules q x) : r.IsLongest rules' q x where
  mem := h.mem_iff.1 hr.mem
  applies := hr.applies
  longest t ht ha := hr.longest t (h.mem_iff.2 ht) ha

theorem Decides.of_perm (h : rules.Perm rules') {q x : String} {v : Severity}
    (hd : Decides rules q x v) : Decides rules' q x v := by
  rcases hd with ⟨r, hr, hv⟩ | ⟨hnone, r, hr, hf, hv⟩
  · exact Or.inl ⟨r, hr.of_perm h, hv⟩
  · exact Or.inr ⟨fun t ht => hnone t (h.mem_iff.2 ht), r, h.mem_iff.1 hr, hf, hv⟩

theorem Undecided.of_perm (h : rules.Perm rules') {q x : String} (hu : Undecided rules q x) :
    Undecided rules' q x :=
  fun r hr => hu r (h.mem_iff.2 hr)

/-- What rules decide does not depend on their order, so neither does following them. -/
theorem Judge.Follows.of_perm (h : rules.Perm rules') {judge : Judge} (hf : judge.Follows rules) :
    judge.Follows rules' := by
  intro q x
  have hq := hf q x
  cases hj : judge q x with
  | some v =>
    rw [hj] at hq
    exact Decides.of_perm h hq
  | none =>
    rw [hj] at hq
    exact Undecided.of_perm h hq

end Reordered

/-- **The order of rules does not matter.** Either kind of judge can be made of rules in one order
if it can be made of them in another, and then the two give the same answer to every question. -/
theorem order_irrelevant {rules rules' : List Rule} (h : rules.Perm rules') :
    ((∃ index, Index.ofRules rules = .ok index) ↔ ∃ index, Index.ofRules rules' = .ok index) ∧
    ((∃ scan, Scan.ofRules rules = .ok scan) ↔ ∃ scan, Scan.ofRules rules' = .ok scan) ∧
    (∀ index index', Index.ofRules rules = .ok index → Index.ofRules rules' = .ok index' →
      ∀ q x, index.judge q x = index'.judge q x) ∧
    ∀ scan scan', Scan.ofRules rules = .ok scan → Scan.ofRules rules' = .ok scan' →
      ∀ q x, scan.judge q x = scan'.judge q x := by
  refine ⟨?_, ?_, ?_, ?_⟩
  · rw [Index.exists_ofRules_iff, Index.exists_ofRules_iff, consistent_iff_of_perm h]
  · rw [Scan.exists_ofRules_iff, Scan.exists_ofRules_iff, consistent_iff_of_perm h]
  · intro index index' hindex hindex'
    obtain ⟨hholds, hcons⟩ := Index.holds_of_ofRules hindex
    obtain ⟨hholds', hcons'⟩ := Index.holds_of_ofRules hindex'
    exact ((hholds.follows hcons).of_perm h).eq (hholds'.follows hcons') hcons'
  · intro scan scan' hscan hscan'
    obtain ⟨kept⟩ := scan
    obtain ⟨kept'⟩ := scan'
    obtain ⟨_, rfl⟩ := Scan.ofRules_eq_ok_iff.1 hscan
    obtain ⟨hcons', rfl⟩ := Scan.ofRules_eq_ok_iff.1 hscan'
    exact ((Scan.follows _).of_perm h).eq (Scan.follows _) hcons'

/-- The nested rules can be added from the last to the first. -/
theorem order_irrelevant_reversed :
    nestedRules.Perm nestedRules.reverse ∧ ∃ index, Index.ofRules nestedRules.reverse = .ok index ∧
      index.judge "com.foo.bar.Qux" "sun.Unsafe" = some .warn := by
  have hperm : nestedRules.Perm nestedRules.reverse := (List.reverse_perm nestedRules).symm
  have hmade : Index.ofRules nestedRules = .ok nestedIndex := by rfl
  have hjudge : nestedIndex.judge "com.foo.bar.Qux" "sun.Unsafe" = some .warn := by decide +kernel
  have hlaw := order_irrelevant hperm
  obtain ⟨index, hindex⟩ := hlaw.1.1 ⟨nestedIndex, hmade⟩
  exact ⟨hperm, index, hindex, (hlaw.2.2.1 nestedIndex index hmade hindex _ _).symm.trans hjudge⟩

end ApiGate
