import ApiGate.Proofs.Agreement

/-!
# Rules that apply never tie

The judge that scans takes a rule of the greatest specificity, the last one if there are several.
There never are. Texts that cover the user and have equally many parts are the same text, and the
wildcard, which has specificity 0, is below all of them because a text has at least one part. So two
rules for one dependency that measure the same have the same pair, and consistent rules do not.

Hence "the rule of the greatest specificity" is one rule, and which of the greatest a judge takes is
no matter (`Scan.judge_eq_of_greatest`).
-/

namespace ApiGate

theorem specificity_eq_zero_iff {d q : String} :
    specificity d q = some 0 ↔ d = Name.wildcard := by
  rw [specificity_eq_some_iff]
  constructor
  · intro h
    rcases h with ⟨hw, _⟩ | ⟨_, _, hlen⟩
    · exact hw
    · have hpos := List.length_pos_iff.2 (Name.parts_ne_nil d)
      omega
  · intro hw
    exact Or.inl ⟨hw, rfl⟩

theorem specificity_eq_some_iff_of_pos {d q : String} {n : Nat} (hn : 1 ≤ n) :
    specificity d q = some n ↔
      d ≠ Name.wildcard ∧ (Name.parts d).length = n ∧ Covers d q := by
  rw [specificity_eq_some_iff]
  constructor
  · intro h
    rcases h with ⟨_, hzero⟩ | ⟨hw, hcov, hlen⟩
    · omega
    · exact ⟨hw, hlen.symm, hcov⟩
  · intro h
    exact Or.inr ⟨h.1, h.2.2, h.2.1.symm⟩

/-- **What a text measures against a user tells which text it is.** -/
theorem eq_of_specificity_eq {d e q : String} {n : Nat} (hd : specificity d q = some n)
    (he : specificity e q = some n) : d = e := by
  by_cases hn : 1 ≤ n
  · obtain ⟨_, hdlen, hdcov⟩ := (specificity_eq_some_iff_of_pos hn).1 hd
    obtain ⟨_, helen, hecov⟩ := (specificity_eq_some_iff_of_pos hn).1 he
    -- each covers the other, so they are equally long beginnings of `q`
    have hle : d.length ≤ e.length :=
      (Covers.parts_length_le_iff hdcov hecov).1 (by omega)
    have hge : e.length ≤ d.length :=
      (Covers.parts_length_le_iff hecov hdcov).1 (by omega)
    exact hdcov.eq_of_length_eq hecov (Nat.le_antisymm hle hge)
  · have hzero : n = 0 := by omega
    subst hzero
    rw [specificity_eq_zero_iff.1 hd, specificity_eq_zero_iff.1 he]

/-- Two rules for one dependency that measure the same against a user have the same pair. -/
theorem Rule.samePair_of_specificity_eq {r s : Rule} {q x : String} {n : Nat}
    (hr : r.dependency.text = x) (hs : s.dependency.text = x)
    (hrn : specificity r.dependent.text q = some n)
    (hsn : specificity s.dependent.text q = some n) : r.samePair s = true :=
  Rule.samePair_iff.2 ⟨eq_of_specificity_eq hrn hsn, hr.trans hs.symm⟩

/-- The specificities of two rules for a user differ, if both apply. -/
def Rule.Unequal (q : String) (r s : Rule) : Prop :=
  ∀ n m, specificity r.dependent.text q = some n → specificity s.dependent.text q = some m → n ≠ m

theorem Consistent.pairwise_unequal {rules : List Rule} (h : Consistent rules) (q x : String) :
    (rules.filter (·.dependency.text = x)).Pairwise (Rule.Unequal q) := by
  have hpairs : (rules.filter (·.dependency.text = x)).Pairwise
      fun r s => ¬r.samePair s = true := List.Pairwise.filter _ h
  refine hpairs.imp_of_mem fun {r s} hr hs hnot n m hn hm heq => hnot ?_
  subst heq
  have hrx : r.dependency.text = x := by simpa using (List.mem_filter.1 hr).2
  have hsx : s.dependency.text = x := by simpa using (List.mem_filter.1 hs).2
  exact Rule.samePair_of_specificity_eq hrx hsx hn hm

/-- A candidate that no other exceeds is the one that the scan takes. -/
theorem Scan.judge_eq_of_greatest {rules : List Rule} (h : Consistent rules) {q x : String}
    {c : Nat × Severity} (hc : c ∈ candidates rules q x)
    (hle : ∀ e ∈ candidates rules q x, e.1 ≤ c.1) : (Scan.mk rules).judge q x = some c.2 := by
  unfold judge
  cases hg : greatest (candidates rules q x) with
  | none =>
    rw [greatest_eq_none hg] at hc
    cases hc
  | some g =>
    obtain ⟨hmem, hgreatest⟩ := mem_of_greatest hg
    have hsame : g.1 = c.1 := Nat.le_antisymm (hle g hmem) (hgreatest c hc)
    obtain ⟨r, hr, hrx, hrn, hrv⟩ := mem_candidates.1 hmem
    obtain ⟨s, hs, hsx, hsn, hsv⟩ := mem_candidates.1 hc
    -- both measure the same, so they come from one rule
    rw [hsame] at hrn
    have hrs : r = s := h.eq_of_samePair hr hs (Rule.samePair_of_specificity_eq hrx hsx hrn hsn)
    rw [Option.map_some, ← hrv, ← hsv, hrs]

/--
**Rules that apply never tie.**

Of consistent rules, any two for one dependency that apply to a user measure differently against it.
A text measures 0 exactly if it is the wildcard, and that whatever the user is: also against the user
`*`, which it equals, it measures 0 and not 1. A text measures `n ≥ 1` exactly if it is not the
wildcard, has `n` parts and covers the user. So whatever candidate none exceeds is the one that
decides.
-/
theorem applying_rules_never_tie {rules : List Rule} (h : Consistent rules) (q x : String) :
    (rules.filter (·.dependency.text = x)).Pairwise (Rule.Unequal q) ∧
    (∀ d, specificity d q = some 0 ↔ d = Name.wildcard) ∧
    (∀ d n, 1 ≤ n → (specificity d q = some n ↔
      d ≠ Name.wildcard ∧ (Name.parts d).length = n ∧ Covers d q)) ∧
    ∀ c ∈ Scan.candidates rules q x, (∀ e ∈ Scan.candidates rules q x, e.1 ≤ c.1) →
      (Scan.mk rules).judge q x = some c.2 :=
  ⟨h.pairwise_unequal q x, fun _ => specificity_eq_zero_iff,
    fun _ _ hn => specificity_eq_some_iff_of_pos hn,
    fun _ hc hle => Scan.judge_eq_of_greatest h hc hle⟩

/-- All three rules apply to a type below the longest of them. -/
theorem applying_rules_never_tie_nested :
    Consistent nestedRules ∧
      (nestedRules.filter (·.dependency.text = "sun.Unsafe")).Pairwise
        (Rule.Unequal "com.foo.bar.Baz.Qux") ∧
      Scan.candidates nestedRules "com.foo.bar.Baz.Qux" "sun.Unsafe" =
        [(2, .warn), (0, .ignore), (4, .fail)] ∧
      ("com.foo" ≠ Name.wildcard ∧ (Name.parts "com.foo").length = 2 ∧
        Covers "com.foo" "com.foo.bar.Baz.Qux") ∧
      (Scan.mk nestedRules).judge "com.foo.bar.Baz.Qux" "sun.Unsafe" = some .fail := by
  have hcons : Consistent nestedRules := by
    unfold Consistent
    decide +kernel
  have hcandidates : Scan.candidates nestedRules "com.foo.bar.Baz.Qux" "sun.Unsafe" =
      [(2, .warn), (0, .ignore), (4, .fail)] := by decide +kernel
  have htwo : specificity "com.foo" "com.foo.bar.Baz.Qux" = some 2 := by decide +kernel
  obtain ⟨hunequal, _, hpos, hgreatest⟩ :=
    applying_rules_never_tie hcons "com.foo.bar.Baz.Qux" "sun.Unsafe"
  refine ⟨hcons, hunequal, hcandidates, (hpos _ 2 (by decide)).1 htwo, ?_⟩
  refine hgreatest (4, .fail) ?_ ?_
  · rw [hcandidates]
    decide
  · rw [hcandidates]
    decide

end ApiGate
