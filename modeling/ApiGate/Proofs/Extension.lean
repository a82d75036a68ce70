import ApiGate.Proofs.Conflicts

/-!
# Adding a rule

A rule that is added to others changes the answers to some questions and to no others. It *prevails*
where it applies and none of the others that apply is for a longer name; a rule for the wildcard
prevails where none of the others applies at all. There the answer is its severity, and everywhere
else it is what it was before (`judge_insert`).

The places that the rule makes in the trees on the way to its own must therefore not show in any
answer. No tree is looked at for this: both judges follow their rules, so it is enough to see what
the rules decide with and without the new one.
-/

namespace ApiGate

/-- Among `rules` the rule `r` has the last word on the use of `x` by `q`. -/
structure Rule.Prevails (r : Rule) (rules : List Rule) (q x : String) : Prop where
  dependency : r.dependency.text = x
  applies : r.dependent.text = Name.wildcard ∨ Covers r.dependent.text q
  /-- A rule for a name that applies is for no longer a name, and leaves the wildcard no say. -/
  unbeaten (s : Rule) : s ∈ rules → s.AppliesTo q x →
    r.dependent.text ≠ Name.wildcard ∧ s.dependent.text.length ≤ r.dependent.text.length

section Added

variable {r : Rule} {rules : List Rule} {q x : String}

theorem Rule.Prevails.decides (h : r.Prevails rules q x) :
    Decides (r :: rules) q x r.severity := by
  by_cases hw : r.dependent.text = Name.wildcard
  · -- a rule for a name would beat it
    refine Or.inr ⟨fun s hs ha => ?_, r, List.mem_cons_self, ⟨h.dependency, hw⟩, rfl⟩
    rcases List.mem_cons.1 hs with rfl | hs
    · exact ha.named hw
    · exact (h.unbeaten s hs ha).1 hw
  · have hcov : Covers r.dependent.text q := h.applies.resolve_left hw
    refine Or.inl ⟨r, ⟨List.mem_cons_self, ⟨h.dependency, hw, hcov⟩, fun s hs ha => ?_⟩, rfl⟩
    rcases List.mem_cons.1 hs with rfl | hs
    · exact Nat.le_refl _
    · exact (h.unbeaten s hs ha).2

/-- A rule that does not prevail is no longer than the longest of the others. -/
theorem Rule.IsLongest.cons {s : Rule} (hs : s.IsLongest rules q x)
    (hnot : ¬r.Prevails rules q x) : s.IsLongest (r :: rules) q x where
  mem := List.mem_cons_of_mem r hs.mem
  applies := hs.applies
  longest t ht ha := by
    rcases List.mem_cons.1 ht with rfl | ht
    · refine Nat.le_of_not_lt fun hlt => hnot ⟨ha.dependency, Or.inr ha.covers, ?_⟩
      intro u hu hua
      exact ⟨ha.named, Nat.le_trans (hs.longest u hu hua) (Nat.le_of_lt hlt)⟩
    · exact hs.longest t ht ha

/-- Where no other rule for a name applies, a rule that does not prevail does not apply either. -/
theorem Rule.not_appliesTo_of_not_prevails (hnot : ¬r.Prevails rules q x)
    (hnone : ∀ s ∈ rules, ¬s.AppliesTo q x) :
    ¬r.AppliesTo q x ∧ ¬r.IsFallbackFor x := by
  refine ⟨fun ha => hnot ⟨ha.dependency, Or.inr ha.covers, ?_⟩,
    fun hf => hnot ⟨hf.dependency, Or.inl hf.wildcard, ?_⟩⟩
  · exact fun s hs hsa => absurd hsa (hnone s hs)
  · exact fun s hs hsa => absurd hsa (hnone s hs)

theorem Decides.cons {v : Severity} (h : Decides rules q x v) (hnot : ¬r.Prevails rules q x) :
    Decides (r :: rules) q x v := by
  rcases h with ⟨s, hs, hv⟩ | ⟨hnone, s, hs, hf, hv⟩
  · exact Or.inl ⟨s, hs.cons hnot, hv⟩
  · have hr := (Rule.not_appliesTo_of_not_prevails hnot hnone).1
    exact Or.inr ⟨List.forall_mem_cons.2 ⟨hr, hnone⟩, s, List.mem_cons_of_mem r hs, hf, hv⟩

theorem Undecided.cons (h : Undecided rules q x) (hnot : ¬r.Prevails rules q x) :
    Undecided (r :: rules) q x :=
  List.forall_mem_cons.2
    ⟨Rule.not_appliesTo_of_not_prevails hnot fun s hs => (h s hs).1, h⟩

/-- The judge of the rules together with `r`, compared with a judge of the rules alone. -/
theorem Judge.Follows.eq_of_cons {judge judge' : Judge} (hc : Consistent (r :: rules))
    (h : judge.Follows rules) (h' : judge'.Follows (r :: rules)) :
    (r.Prevails rules q x → judge' q x = some r.severity) ∧
      (¬r.Prevails rules q x → judge' q x = judge q x) := by
  refine ⟨fun hp => (h'.eq_some_iff hc).2 hp.decides, fun hnot => ?_⟩
  have hq := h q x
  cases hj : judge q x with
  | some v =>
    rw [hj] at hq
    exact (h'.eq_some_iff hc).2 (hq.cons hnot)
  | none =>
    rw [hj] at hq
    exact h'.eq_none_iff.2 (Undecided.cons hq hnot)

end Added

/-- **Adding a rule changes the answers where it prevails, and no others.** To rules without a
conflict, a rule for a pair that they are not about can be added at any place. -/
theorem judge_insert {before after : List Rule} {r : Rule} (hc : Consistent (before ++ after))
    (hnew : ∀ s ∈ before ++ after, ¬s.samePair r = true) :
    ∃ index index', Index.ofRules (before ++ after) = .ok index ∧
      Index.ofRules (before ++ r :: after) = .ok index' ∧
      ∀ q x, (r.Prevails (before ++ after) q x → index'.judge q x = some r.severity) ∧
        (¬r.Prevails (before ++ after) q x → index'.judge q x = index.judge q x) := by
  have hperm : (before ++ r :: after).Perm (r :: (before ++ after)) := List.perm_middle
  have hfirst : Consistent (r :: (before ++ after)) :=
    List.pairwise_cons.2 ⟨fun s hs hpair => hnew s hs (Rule.samePair_symm hpair), hc⟩
  obtain ⟨index, hindex⟩ := Index.exists_ofRules_iff.2 hc
  obtain ⟨index', hindex'⟩ := Index.exists_ofRules_iff.2 ((consistent_iff_of_perm hperm).2 hfirst)
  have hfollows := (Index.holds_of_ofRules hindex).1.follows hc
  obtain ⟨hholds', hc'⟩ := Index.holds_of_ofRules hindex'
  -- where the rule stands does not matter, so let it be the first
  have hfollows' := (hholds'.follows hc').of_perm hperm
  exact ⟨index, index', hindex, hindex', fun _ _ => hfollows.eq_of_cons hfirst hfollows'⟩

/-- A rule for a package and a rule for a type two levels below it. -/
def outerRules : List Rule :=
  [⟨⟨"edu", by decide +kernel⟩, ⟨"sun.Signal", by decide +kernel⟩, .warn⟩,
    ⟨⟨"edu.app.Main", by decide +kernel⟩, ⟨"sun.Signal", by decide +kernel⟩, .fail⟩]

/-- A rule for the package between the two. -/
def middleRule : Rule :=
  ⟨⟨"edu.app", by decide +kernel⟩, ⟨"sun.Signal", by decide +kernel⟩, .ignore⟩

/-- Put between the two, the rule prevails for its package, but not for the type in it. -/
theorem judge_insert_middle :
    ∃ index, Index.ofRules (outerRules.take 1 ++ middleRule :: outerRules.drop 1) = .ok index ∧
      index.judge "edu.app.Other" "sun.Signal" = some .ignore ∧
      index.judge "edu.app.Main" "sun.Signal" = some .fail := by
  have hmade : Index.ofRules (outerRules.take 1 ++ outerRules.drop 1) =
      .ok ⟨[("sun.Signal", ⟨none, .cons "edu" (some .warn)
        (.cons "app" none (.cons "Main" (some .fail) .nil .nil) .nil) .nil⟩)], 2⟩ := by rfl
  have hnew : ∀ s ∈ outerRules.take 1 ++ outerRules.drop 1, ¬s.samePair middleRule = true := by
    decide +kernel
  have hother : middleRule.Prevails outerRules "edu.app.Other" "sun.Signal" := by
    refine ⟨rfl, Or.inr (by decide +kernel), fun s hs ha => ⟨by decide +kernel, ?_⟩⟩
    have hshort : ∀ s ∈ outerRules, Covers s.dependent.text "edu.app.Other" →
        s.dependent.text.length ≤ middleRule.dependent.text.length := by decide +kernel
    exact hshort s hs ha.covers
  have hmain : ¬middleRule.Prevails outerRules "edu.app.Main" "sun.Signal" := by
    intro h
    have hlonger : ∃ s ∈ outerRules, s.dependency.text = "sun.Signal" ∧
        s.dependent.text ≠ Name.wildcard ∧ Covers s.dependent.text "edu.app.Main" ∧
        middleRule.dependent.text.length < s.dependent.text.length := by decide +kernel
    obtain ⟨s, hs, hx, hnamed, hcov, hlt⟩ := hlonger
    exact Nat.not_lt.2 (h.unbeaten s hs ⟨hx, hnamed, hcov⟩).2 hlt
  obtain ⟨index, index', hindex, hindex', hlaw⟩ :=
    judge_insert (Index.exists_ofRules_iff.1 ⟨_, hmade⟩) hnew
  cases hmade.symm.trans hindex
  exact ⟨index', hindex', (hlaw _ _).1 hother, (hlaw _ _).2 hmain⟩

end ApiGate
