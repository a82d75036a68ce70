import ApiGate.Proofs.Judging

/-!
# What judges answer

Both kinds of judge are made of a list of rules, and this module says what comes of it.

* They are made of the same lists and give the same answers; from a list of which they are not made,
  both report the same clash (`index_scan_agree`).
* The answer is the severity of the longest rule that covers the user, else that of the rule for the
  wildcard, else there is none. Every rule is live: it decides at least its own pair
  (`judge_mostSpecific`).
-/

namespace ApiGate

/-- **The two kinds of judge agree.** Rules make both or neither. If both, then each gives every
question, about any texts, the answer of the other; if neither, then both for the same two rules. -/
theorem index_scan_agree (rules : List Rule) :
    (∃ index scan, Index.ofRules rules = .ok index ∧ Scan.ofRules rules = .ok scan ∧
      ∀ q x, index.judge q x = scan.judge q x) ∨
    ∃ c, Index.ofRules rules = .error c ∧ Scan.ofRules rules = .error c := by
  have hspec := Index.ofRules_spec rules
  cases hc : Scan.clash? [] rules with
  | some c =>
    rw [hc] at hspec
    refine Or.inr ⟨c, hspec, ?_⟩
    rw [Scan.ofRules, hc]
  | none =>
    rw [hc] at hspec
    obtain ⟨index, hindex, hholds⟩ := hspec
    have hcons : Consistent rules := (Scan.clash?_eq_none_iff.1 hc).2
    have hscan : Scan.ofRules rules = .ok ⟨rules⟩ := by rw [Scan.ofRules, hc]
    exact Or.inl ⟨index, ⟨rules⟩, hindex, hscan,
      (hholds.follows hcons).eq (Scan.follows rules) hcons⟩

/-- **The most specific rule wins.** A question is answered by the longest rule for a name that
covers the user, or if there is none by the rule for the wildcard, and by nothing only if there is
none of either. A question about the pair of a rule is answered by that rule. -/
theorem judge_mostSpecific {rules : List Rule} {index : Index}
    (h : Index.ofRules rules = .ok index) :
    (∀ q x v, index.judge q x = some v ↔ Decides rules q x v) ∧
    (∀ q x, index.judge q x = none ↔ Undecided rules q x) ∧
    ∀ r ∈ rules, index.judge r.dependent.text r.dependency.text = some r.severity := by
  obtain ⟨hholds, hcons⟩ := Index.holds_of_ofRules h
  have hfollows := hholds.follows hcons
  refine ⟨fun q x v => hfollows.eq_some_iff hcons, fun q x => hfollows.eq_none_iff, ?_⟩
  intro r hr
  exact (hfollows.eq_some_iff hcons).2 (Decides.own hr)

/-- Three rules for one dependency: for a package, for a package in it, and for the wildcard. -/
def nestedRules : List Rule :=
  [⟨⟨"com.foo", by decide +kernel⟩, ⟨"sun.Unsafe", by decide +kernel⟩, .warn⟩,
    ⟨⟨"*", by decide +kernel⟩, ⟨"sun.Unsafe", by decide +kernel⟩, .ignore⟩,
    ⟨⟨"com.foo.bar.Baz", by decide +kernel⟩, ⟨"sun.Unsafe", by decide +kernel⟩, .fail⟩]

/-- The tree of the three rules: the places for `com` and for `com.foo.bar` have no severity. -/
def nestedIndex : Index :=
  ⟨[("sun.Unsafe", ⟨some .ignore, .cons "com" none
    (.cons "foo" (some .warn) (.cons "bar" none (.cons "Baz" (some .fail) .nil .nil) .nil) .nil)
    .nil⟩)], 3⟩

theorem judge_mostSpecific_nested :
    Index.ofRules nestedRules = .ok nestedIndex ∧
      Decides nestedRules "com.foo.bar.Qux" "sun.Unsafe" .warn := by
  have hmade : Index.ofRules nestedRules = .ok nestedIndex := by rfl
  have hjudge : nestedIndex.judge "com.foo.bar.Qux" "sun.Unsafe" = some .warn := by decide +kernel
  exact ⟨hmade, ((judge_mostSpecific hmade).1 _ _ _).1 hjudge⟩

end ApiGate
