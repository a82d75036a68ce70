import ApiGate.Proofs.Consistency
import ApiGate.Proofs.Coverage

/-!
# Which rule decides

What rules say about a use, without any judge: of the rules for the dependency whose dependent
covers the user, the one with the longest dependent decides, and if there is none, a rule for the
wildcard does. "Longest" is meant of the text.

Consistent rules decide each use in one way at most (`Decides.unique`). So a judge that follows the
rules has no choice, and any two of them agree on every question.
-/

namespace ApiGate

/-- A rule for a name applies to a use: it is about the dependency and covers the user. -/
structure Rule.AppliesTo (r : Rule) (q x : String) : Prop where
  dependency : r.dependency.text = x
  named : r.dependent.text ≠ Name.wildcard
  covers : Covers r.dependent.text q

/-- A rule for the wildcard is about a dependency. -/
structure Rule.IsFallbackFor (r : Rule) (x : String) : Prop where
  dependency : r.dependency.text = x
  wildcard : r.dependent.text = Name.wildcard

/-- Of the rules for names that apply to a use, `r` has the longest dependent. -/
structure Rule.IsLongest (r : Rule) (rules : List Rule) (q x : String) : Prop where
  mem : r ∈ rules
  applies : r.AppliesTo q x
  longest : ∀ t ∈ rules, t.AppliesTo q x → t.dependent.text.length ≤ r.dependent.text.length

/-- Rules decide that the use of `x` by `q` has the severity `v`. -/
def Decides (rules : List Rule) (q x : String) (v : Severity) : Prop :=
  (∃ r : Rule, r.IsLongest rules q x ∧ r.severity = v) ∨
    (∀ r ∈ rules, ¬r.AppliesTo q x) ∧ ∃ r ∈ rules, r.IsFallbackFor x ∧ r.severity = v

/-- Rules leave the use of `x` by `q` undecided: none applies, for a name or for everything. -/
def Undecided (rules : List Rule) (q x : String) : Prop :=
  ∀ r ∈ rules, ¬r.AppliesTo q x ∧ ¬r.IsFallbackFor x

/-- The severity of the use of `x` by `q`: the one that the rules decide, and a default for what
they leave undecided. -/
def Resolves (rules : List Rule) (default : Severity) (q x : String) (v : Severity) : Prop :=
  Decides rules q x v ∨ (Undecided rules q x ∧ v = default)

theorem Undecided.not_decides {rules : List Rule} {q x : String} {v : Severity}
    (h : Undecided rules q x) : ¬Decides rules q x v := by
  intro hdecides
  rcases hdecides with ⟨r, hr, _⟩ | ⟨_, r, hr, hf, _⟩
  · exact (h r hr.mem).1 hr.applies
  · exact (h r hr).2 hf

/-- Of two longest rules for one use, each has the other's pair. -/
theorem Rule.IsLongest.samePair {rules : List Rule} {q x : String} {r s : Rule}
    (hr : r.IsLongest rules q x) (hs : s.IsLongest rules q x) : r.samePair s = true := by
  have hle : r.dependent.text.length ≤ s.dependent.text.length := hs.longest r hr.mem hr.applies
  have hge : s.dependent.text.length ≤ r.dependent.text.length := hr.longest s hs.mem hs.applies
  have htext : r.dependent.text = s.dependent.text :=
    hr.applies.covers.eq_of_length_eq hs.applies.covers (Nat.le_antisymm hle hge)
  exact Rule.samePair_iff.2 ⟨htext, hr.applies.dependency.trans hs.applies.dependency.symm⟩

/-- **Consistent rules decide a use in one way at most.** -/
theorem Decides.unique {rules : List Rule} (hc : Consistent rules) {q x : String} {v w : Severity}
    (hv : Decides rules q x v) (hw : Decides rules q x w) : v = w := by
  rcases hv with ⟨r, hr, rfl⟩ | ⟨hnone, r, hr, hrf, rfl⟩
  · rcases hw with ⟨s, hs, rfl⟩ | ⟨hnone, _⟩
    · rw [hc.eq_of_samePair hr.mem hs.mem (hr.samePair hs)]
    · exact absurd hr.applies (hnone r hr.mem)
  · rcases hw with ⟨s, hs, _⟩ | ⟨_, s, hs, hsf, rfl⟩
    · exact absurd hs.applies (hnone s hs.mem)
    · -- two rules for the wildcard and one dependency have one pair
      have hpair : r.samePair s = true :=
        Rule.samePair_iff.2 ⟨hrf.wildcard.trans hsf.wildcard.symm,
          hrf.dependency.trans hsf.dependency.symm⟩
      rw [hc.eq_of_samePair hr hs hpair]

/-- A rule decides the use that is its own pair. -/
theorem Decides.own {rules : List Rule} {r : Rule} (hr : r ∈ rules) :
    Decides rules r.dependent.text r.dependency.text r.severity := by
  by_cases hw : r.dependent.text = Name.wildcard
  · -- nothing but the wildcard itself covers the wildcard
    refine Or.inr ⟨?_, r, hr, ⟨rfl, hw⟩, rfl⟩
    intro t _ ht
    have hcov := ht.covers
    rw [hw] at hcov
    exact ht.named (Covers.eq_wildcard hcov)
  · refine Or.inl ⟨r, ⟨hr, ⟨rfl, hw, Covers.refl _⟩, ?_⟩, rfl⟩
    intro t _ ht
    exact ht.covers.length_le

/-! ## Judges that follow rules -/

/-- A judge gives each use the severity that rules decide, and none exactly to those they leave
undecided. -/
def Judge.Follows (judge : Judge) (rules : List Rule) : Prop :=
  ∀ q x, match judge q x with
    | some v => Decides rules q x v
    | none => Undecided rules q x

namespace Judge.Follows

variable {judge other : Judge} {rules : List Rule}

theorem eq_some_iff (h : judge.Follows rules) (hc : Consistent rules) {q x : String}
    {v : Severity} : judge q x = some v ↔ Decides rules q x v := by
  have hq := h q x
  cases hj : judge q x with
  | none =>
    rw [hj] at hq
    simp only [reduceCtorEq, false_iff]
    exact hq.not_decides
  | some w =>
    rw [hj] at hq
    constructor
    · intro hw
      rw [← Option.some.inj hw]
      exact hq
    · intro hv
      rw [Decides.unique hc hq hv]

theorem eq_none_iff (h : judge.Follows rules) {q x : String} :
    judge q x = none ↔ Undecided rules q x := by
  have hq := h q x
  cases hj : judge q x with
  | none =>
    rw [hj] at hq
    simp only [true_iff]
    exact hq
  | some v =>
    rw [hj] at hq
    simp only [reduceCtorEq, false_iff]
    exact fun hu => hu.not_decides hq

theorem judgeOr_eq_iff (h : judge.Follows rules) (hc : Consistent rules) {default : Severity}
    {q x : String} {v : Severity} :
    judge.judgeOr q x default = v ↔ Resolves rules default q x v := by
  unfold Judge.judgeOr Resolves
  rw [← h.eq_some_iff hc, ← h.eq_none_iff]
  cases judge q x with
  | none => simp [eq_comm]
  | some w => simp

/-- **Two judges that follow the same consistent rules are the same judge.** -/
theorem eq (h : judge.Follows rules) (h' : other.Follows rules) (hc : Consistent rules)
    (q x : String) : judge q x = other q x := by
  cases hj : judge q x with
  | none => exact (h'.eq_none_iff.2 (h.eq_none_iff.1 hj)).symm
  | some v => exact ((h'.eq_some_iff hc).2 ((h.eq_some_iff hc).1 hj)).symm

end Judge.Follows

end ApiGate
