import ApiGate.Proofs.Indexing
import ApiGate.Proofs.Precedence

/-!
# Both judges follow the rules

The index walks a tree, the scan looks at every rule. Each of them gives a use the severity that the
rules decide and leaves undecided what they leave undecided; that the two agree follows from that
and needs no comparison of one with the other.

* For the index, the end of the walk is the longest rule, because beginnings of the parts are the
  names that cover the text and longer names have more parts.
* For the scan, the greatest specificity is that of the longest rule for the same reason. A rule for
  the wildcard has specificity 0 and any other has more, so the wildcard comes last.
-/

namespace ApiGate

/-! ## The index -/

namespace Index

theorem judge_eq_tree_judge (index : Index) (q x : String) :
    index.judge q x = (index.tree x).judge q := by
  unfold judge tree
  cases index.trees.lookup x with
  | some t => rfl
  | none =>
    have hwalk : Forest.nil.deepest (Name.parts q) none = none :=
      Forest.deepest_eq_none_iff.2 fun path _ => Forest.severity?_nil path
    simp [Tree.judge, Tree.empty, hwalk]

namespace Holds

variable {index : Index} {rules : List Rule} {q x : String}

theorem named (h : index.Holds rules) {d : String} (hd : d ≠ Name.wildcard) :
    (index.tree x).names.severity? (Name.parts d) = Rule.severityIn? rules d x := by
  rw [← h.severity d x, Tree.severity?, if_neg hd]

theorem wildcard (h : index.Holds rules) :
    (index.tree x).wildcard = Rule.severityIn? rules Name.wildcard x := by
  rw [← h.severity Name.wildcard x, Tree.severity?, if_pos rfl]

/-- The walk for a user meets every rule that applies. -/
theorem severity?_ne_none (h : index.Holds rules) {r : Rule} (hr : r ∈ rules)
    (ha : r.AppliesTo q x) :
    (index.tree x).names.severity? (Name.parts r.dependent.text) ≠ none := by
  rw [h.named ha.named]
  intro hnone
  exact Rule.severityIn?_eq_none_iff.1 hnone r hr ⟨rfl, ha.dependency⟩

/-- Where the walk ends, the longest rule is. -/
theorem isLongest_of_reaches (h : index.Holds rules) (hc : Consistent rules) {path : List String}
    {v : Severity} (hw : (index.tree x).names.Reaches (Name.parts q) path v) :
    ∃ r : Rule, r.IsLongest rules q x ∧ r.severity = v := by
  obtain ⟨d, rfl⟩ :=
    Name.exists_parts_eq_of_begins hw.begins (Forest.ne_nil_of_severity? hw.severity)
  have hcov : Covers d q := Name.parts_prefix_iff.1 hw.begins
  have hd : d ≠ Name.wildcard := by
    intro hwild
    have hplain := h.plain x
    unfold Tree.Plain at hplain
    rw [← hwild, hw.severity] at hplain
    cases hplain
  have hsev : Rule.severityIn? rules d x = some v := (h.named hd).symm.trans hw.severity
  obtain ⟨r, hr, rfl, hx, rfl⟩ := hc.severityIn?_eq_some_iff.1 hsev
  refine ⟨r, ⟨hr, ⟨hx, hd, hcov⟩, ?_⟩, rfl⟩
  intro t ht ha
  have hlen := hw.longest _ (Name.parts_prefix_iff.2 ha.covers) (h.severity?_ne_none ht ha)
  exact (Covers.parts_length_le_iff ha.covers hcov).1 hlen

/-- **The judge that walks a tree follows the rules.** -/
theorem follows (h : index.Holds rules) (hc : Consistent rules) :
    Judge.Follows index.judge rules := by
  intro q x
  rw [judge_eq_tree_judge, Tree.judge]
  cases hd : (index.tree x).names.deepest (Name.parts q) none with
  | some v =>
    rw [Option.some_or]
    obtain ⟨path, hw⟩ := Forest.deepest_eq_some_iff.1 hd
    exact Or.inl (h.isLongest_of_reaches hc hw)
  | none =>
    rw [Option.none_or, h.wildcard]
    have hnone : ∀ r ∈ rules, ¬r.AppliesTo q x := by
      intro r hr ha
      refine h.severity?_ne_none hr ha ?_
      exact Forest.deepest_eq_none_iff.1 hd _ (Name.parts_prefix_iff.2 ha.covers)
    cases hs : Rule.severityIn? rules Name.wildcard x with
    | some v =>
      obtain ⟨r, hr, hw, hx, hv⟩ := hc.severityIn?_eq_some_iff.1 hs
      exact Or.inr ⟨hnone, r, hr, ⟨hx, hw⟩, hv⟩
    | none =>
      intro r hr
      refine ⟨hnone r hr, fun hf => ?_⟩
      exact Rule.severityIn?_eq_none_iff.1 hs r hr ⟨hf.wildcard, hf.dependency⟩

end Holds

end Index

/-! ## The scan -/

theorem specificity_eq_some_iff {d q : String} {n : Nat} :
    specificity d q = some n ↔
      (d = Name.wildcard ∧ n = 0) ∨
        (d ≠ Name.wildcard ∧ Covers d q ∧ n = (Name.parts d).length) := by
  unfold specificity
  by_cases hw : d = Name.wildcard
  · simp [hw, eq_comm]
  · by_cases hp : Name.parts d <+: Name.parts q
    · have hcov : Covers d q := Name.parts_prefix_iff.1 hp
      simp [hw, List.isPrefixOf_iff_prefix.2 hp, hcov, eq_comm]
    · have hcov : ¬Covers d q := fun h => hp (Name.parts_prefix_iff.2 h)
      have hfalse : (Name.parts d).isPrefixOf (Name.parts q) = false :=
        Bool.eq_false_iff.2 fun h => hp (List.isPrefixOf_iff_prefix.1 h)
      simp [hw, hfalse, hcov]

namespace Scan

variable {rules : List Rule} {q x : String}

/-- A candidate is preferred to a best one that is no greater, and only then. -/
theorem prefer_eq (best : Option (Nat × Severity)) (c : Nat × Severity) :
    ∃ b, prefer best c = some b ∧ (b = c ∨ best = some b) ∧ c.1 ≤ b.1 ∧
      ∀ b', best = some b' → b'.1 ≤ b.1 := by
  unfold prefer
  cases best with
  | none => exact ⟨c, rfl, Or.inl rfl, Nat.le_refl _, fun b' h => by cases h⟩
  | some a =>
    rw [Option.all_some]
    by_cases hac : a.1 ≤ c.1
    · -- of two equals the later one is kept
      refine ⟨c, by simp [hac], Or.inl rfl, Nat.le_refl _, fun b' h => ?_⟩
      rw [← Option.some.inj h]
      exact hac
    · refine ⟨a, by simp [hac], Or.inr rfl, Nat.le_of_not_le hac, fun b' h => ?_⟩
      cases h
      exact Nat.le_refl a.1

/-- What a run over candidates keeps: the best so far or one of them, and nothing greater than it
was there. -/
theorem foldl_prefer (candidates : List (Nat × Severity)) (best : Option (Nat × Severity)) :
    match candidates.foldl prefer best with
    | some c => (c ∈ candidates ∨ best = some c) ∧ (∀ e ∈ candidates, e.1 ≤ c.1) ∧
        ∀ b, best = some b → b.1 ≤ c.1
    | none => candidates = [] ∧ best = none := by
  induction candidates generalizing best with
  | nil =>
    cases best with
    | none => exact ⟨rfl, rfl⟩
    | some b =>
      refine ⟨Or.inr rfl, fun e he => absurd he List.not_mem_nil, fun b' h => ?_⟩
      cases h
      exact Nat.le_refl b.1
  | cons c rest ih =>
    obtain ⟨b, hb, hfrom, hcb, hbest⟩ := prefer_eq best c
    have hrest := ih (some b)
    rw [List.foldl_cons, hb]
    cases hrun : rest.foldl prefer (some b) with
    | none =>
      rw [hrun] at hrest
      cases hrest.2
    | some g =>
      rw [hrun] at hrest
      obtain ⟨hg, hle, hbg⟩ := hrest
      -- what the rest keeps is no less than `b`, hence no less than `c` and the best before
      have hle' : b.1 ≤ g.1 := hbg b rfl
      refine ⟨?_, ?_, fun b' h => Nat.le_trans (hbest b' h) hle'⟩
      · rcases hg with hg | hg
        · exact Or.inl (List.mem_cons_of_mem c hg)
        · rw [Option.some.inj hg] at hfrom
          rcases hfrom with rfl | hfrom
          · exact Or.inl List.mem_cons_self
          · exact Or.inr hfrom
      · intro e he
        rcases List.mem_cons.1 he with rfl | he
        · exact Nat.le_trans hcb hle'
        · exact hle e he

theorem greatest_eq_none {candidates : List (Nat × Severity)} (h : greatest candidates = none) :
    candidates = [] := by
  have hspec := foldl_prefer candidates none
  unfold greatest at h
  rw [h] at hspec
  exact hspec.1

theorem mem_of_greatest {candidates : List (Nat × Severity)} {c : Nat × Severity}
    (h : greatest candidates = some c) : c ∈ candidates ∧ ∀ e ∈ candidates, e.1 ≤ c.1 := by
  have hspec := foldl_prefer candidates none
  unfold greatest at h
  rw [h] at hspec
  obtain ⟨hmem | hbest, hle, _⟩ := hspec
  · exact ⟨hmem, hle⟩
  · cases hbest

theorem mem_candidates {n : Nat} {v : Severity} :
    (n, v) ∈ candidates rules q x ↔
      ∃ r ∈ rules, r.dependency.text = x ∧ specificity r.dependent.text q = some n ∧
        r.severity = v := by
  unfold candidates
  simp only [List.mem_filterMap, List.mem_filter, beq_iff_eq, Option.map_eq_some_iff, Prod.mk.injEq]
  constructor
  · intro h
    obtain ⟨r, ⟨hr, hx⟩, n', hn, rfl, rfl⟩ := h
    exact ⟨r, hr, hx, hn, rfl⟩
  · intro h
    obtain ⟨r, hr, hx, hn, rfl⟩ := h
    exact ⟨r, ⟨hr, hx⟩, n, hn, rfl, rfl⟩

theorem mem_candidates_of_appliesTo {r : Rule} (hr : r ∈ rules) (ha : r.AppliesTo q x) :
    ((Name.parts r.dependent.text).length, r.severity) ∈ candidates rules q x :=
  mem_candidates.2 ⟨r, hr, ha.dependency,
    specificity_eq_some_iff.2 (Or.inr ⟨ha.named, ha.covers, rfl⟩), rfl⟩

/-- A rule for the wildcard is a candidate, and the least specific one. -/
theorem mem_candidates_of_isFallbackFor {r : Rule} (hr : r ∈ rules) (hf : r.IsFallbackFor x) :
    (0, r.severity) ∈ candidates rules q x :=
  mem_candidates.2 ⟨r, hr, hf.dependency,
    specificity_eq_some_iff.2 (Or.inl ⟨hf.wildcard, rfl⟩), rfl⟩

/-- **The judge that scans follows the rules.** -/
theorem follows (rules : List Rule) : Judge.Follows (Scan.mk rules).judge rules := by
  intro q x
  unfold judge
  cases hg : greatest (candidates rules q x) with
  | none =>
    -- every rule that applies is a candidate, and there are none
    have hnil := greatest_eq_none hg
    intro r hr
    constructor
    · intro ha
      have hmem := mem_candidates_of_appliesTo hr ha
      rw [hnil] at hmem
      cases hmem
    · intro hf
      have hmem := mem_candidates_of_isFallbackFor (q := q) hr hf
      rw [hnil] at hmem
      cases hmem
  | some c =>
    obtain ⟨n, v⟩ := c
    obtain ⟨hmem, hgreatest⟩ := mem_of_greatest hg
    obtain ⟨r, hr, hx, hn, rfl⟩ := mem_candidates.1 hmem
    rcases specificity_eq_some_iff.1 hn with ⟨hw, rfl⟩ | ⟨hw, hcov, rfl⟩
    · -- the wildcard is the greatest only if nothing else is there
      refine Or.inr ⟨fun t ht ha => ?_, r, hr, ⟨hx, hw⟩, rfl⟩
      have hle := hgreatest _ (mem_candidates_of_appliesTo ht ha)
      have hpos := List.length_pos_iff.2 (Name.parts_ne_nil t.dependent.text)
      simp only at hle
      omega
    · -- more parts among the names that cover `q` is more characters
      refine Or.inl ⟨r, ⟨hr, ⟨hx, hw, hcov⟩, fun t ht ha => ?_⟩, rfl⟩
      have hle := hgreatest _ (mem_candidates_of_appliesTo ht ha)
      exact (Covers.parts_length_le_iff ha.covers hcov).1 hle

end Scan

end ApiGate
