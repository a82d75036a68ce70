import ApiGate.Judge.Index
import ApiGate.Proofs.Consistency
import ApiGate.Proofs.Coverage
import ApiGate.Proofs.Forest

/-!
# What an index holds

An index *holds* a list of rules if it says of each pair of dependent and dependency what the list
says of it. The invariant has three parts:

* the place for a pair has the severity of the first rule for the pair, and none if there is no such
  rule, so that places made on the way to others count for nothing;
* no name stands for the wildcard: the place of the single part `*` is never taken, so a walk for
  the text `*` ends with nothing and the wildcard answers;
* the count is that of the rules.

Adding a rule looks at the place for its pair. If the place is taken, then by a rule of the list,
and the severity found there is all that is needed to say which rule it was, since the pair is
known. So making an index is the search for a clash, step by step: `foldlM_insert`.
-/

namespace ApiGate

namespace Tree

/-- The severity of a dependent, as it was inserted. -/
def severity? (t : Tree) (d : String) : Option Severity :=
  if d = Name.wildcard then t.wildcard else t.names.severity? (Name.parts d)

/-- No name stands for the wildcard. -/
def Plain (t : Tree) : Prop := t.names.severity? (Name.parts Name.wildcard) = none

@[simp] theorem severity?_empty (d : String) : empty.severity? d = none := by
  unfold severity?
  split
  · rfl
  · simp [empty]

theorem plain_empty : empty.Plain := Forest.severity?_nil _

@[simp] theorem isWildcard_iff {n : Name} : n.isWildcard = true ↔ n.text = Name.wildcard := by
  simp [Name.isWildcard]

theorem insert_of_taken {t : Tree} {n : Name} {v old : Severity}
    (h : t.severity? n.text = some old) : t.insert n v = .error old := by
  by_cases hw : n.text = Name.wildcard
  · have hslot : t.wildcard = some old := by simpa [severity?, hw] using h
    simp [insert, hw, hslot]
  · have hplace : t.names.severity? (Name.parts n.text) = some old := by
      simpa [severity?, hw] using h
    simp [insert, hw, Forest.insert_of_taken hplace, Except.map]

theorem insert_of_free {t : Tree} {n : Name} {v : Severity} (hplain : t.Plain)
    (h : t.severity? n.text = none) :
    ∃ next, t.insert n v = .ok next ∧ next.Plain ∧
      ∀ d, next.severity? d = if d = n.text then some v else t.severity? d := by
  by_cases hw : n.text = Name.wildcard
  · -- the wildcard has a slot of its own, apart from the names
    have hslot : t.wildcard = none := by simpa [severity?, hw] using h
    refine ⟨{ t with wildcard := some v }, by simp [insert, hw, hslot], hplain, fun d => ?_⟩
    rw [hw]
    by_cases hd : d = Name.wildcard
    · simp [severity?, hd]
    · simp [severity?, hd]
  · have hplace : t.names.severity? (Name.parts n.text) = none := by
      simpa [severity?, hw] using h
    obtain ⟨g, hg, hgs⟩ := Forest.insert_of_free (v := v) (Name.parts_ne_nil n.text) hplace
    refine ⟨{ t with names := g }, by simp [insert, hw, hg, Except.map], ?_, fun d => ?_⟩
    · -- other parts than those of the wildcard were set
      have hne : Name.parts Name.wildcard ≠ Name.parts n.text :=
        fun he => hw (Name.eq_of_parts_eq he).symm
      unfold Plain
      rw [hgs (Name.parts Name.wildcard), if_neg hne]
      exact hplain
    · by_cases hd : d = Name.wildcard
      · have hdn : d ≠ n.text := fun he => hw (he.symm.trans hd)
        simp only [severity?, if_pos hd, if_neg hdn]
      · have hiff : Name.parts d = Name.parts n.text ↔ d = n.text :=
          ⟨Name.eq_of_parts_eq, fun he => by rw [he]⟩
        simp only [severity?, if_neg hd, hgs (Name.parts d), hiff]

end Tree

namespace Index

/-- The tree for a dependency; without one it is as if it were empty. -/
def tree (index : Index) (x : String) : Tree := (index.trees.lookup x).getD .empty

/-- An index holds a list of rules. -/
structure Holds (index : Index) (rules : List Rule) : Prop where
  /-- The place for a pair has the severity of the first rule for the pair. -/
  severity : ∀ d x, (index.tree x).severity? d = Rule.severityIn? rules d x
  /-- No name stands for the wildcard. -/
  plain : ∀ x, (index.tree x).Plain
  /-- The rules are counted. -/
  count : index.ruleCount = rules.length

theorem holds_empty : empty.Holds [] where
  severity d _ := Tree.severity?_empty d
  plain _ := Tree.plain_empty
  count := rfl

theorem lookup_cons_eq (x y : String) (t : Tree) (rest : List (String × Tree)) :
    ((x, t) :: rest).lookup y = if y = x then some t else rest.lookup y := by
  rw [List.lookup_cons]
  by_cases h : y = x
  · simp [h]
  · rw [if_neg h, beq_false_of_ne h]

/-- Adding a rule to the trees is adding it to the tree of its dependency. -/
theorem insertTree_eq (r : Rule) (trees : List (String × Tree)) :
    match ((trees.lookup r.dependency.text).getD .empty).insert r.dependent r.severity with
    | .error old => insertTree r trees = .error old
    | .ok t => ∃ next, insertTree r trees = .ok next ∧
        ∀ y, next.lookup y = if y = r.dependency.text then some t else trees.lookup y := by
  induction trees with
  | nil =>
    -- the dependency has no tree yet
    simp only [List.lookup_nil, Option.getD_none, insertTree]
    cases Tree.empty.insert r.dependent r.severity with
    | error old => rfl
    | ok t =>
      refine ⟨[(r.dependency.text, t)], rfl, fun y => ?_⟩
      rw [lookup_cons_eq, List.lookup_nil]
  | cons e rest ih =>
    obtain ⟨x, t⟩ := e
    simp only [insertTree, lookup_cons_eq]
    by_cases hx : x = r.dependency.text
    · rw [if_pos hx.symm, if_pos hx, Option.getD_some]
      cases t.insert r.dependent r.severity with
      | error old => rfl
      | ok t' =>
        refine ⟨(x, t') :: rest, rfl, fun y => ?_⟩
        rw [lookup_cons_eq, hx]
        by_cases hy : y = r.dependency.text
        · rw [if_pos hy, if_pos hy]
        · rw [if_neg hy, if_neg hy, if_neg hy]
    · -- its tree is further on, or is made at the end
      rw [if_neg (Ne.symm hx), if_neg hx]
      cases hins : ((rest.lookup r.dependency.text).getD .empty).insert r.dependent r.severity with
      | error old =>
        rw [hins] at ih
        simp only [ih]
        rfl
      | ok t' =>
        rw [hins] at ih
        obtain ⟨next, hnext, hlookup⟩ := ih
        refine ⟨(x, t) :: next, by rw [hnext]; rfl, fun y => ?_⟩
        rw [lookup_cons_eq, hlookup]
        by_cases hy : y = x
        · have hyr : y ≠ r.dependency.text := fun he => hx (hy.symm.trans he)
          rw [if_pos hy, if_neg hyr, if_pos hy]
        · rw [if_neg hy, if_neg hy]

/-- **One step of making an index.** A rule whose pair has a rule already conflicts with that rule;
any other rule is added. -/
theorem insert_step {index : Index} {earlier : List Rule} (h : index.Holds earlier) (r : Rule) :
    match earlier.find? (Rule.samePair · r) with
    | some e => index.insert r = .error ⟨e, r⟩
    | none => ∃ next, index.insert r = .ok next ∧ next.Holds (earlier ++ [r]) := by
  have hplace : (index.tree r.dependency.text).severity? r.dependent.text =
      (earlier.find? (Rule.samePair · r)).map (·.severity) := by
    rw [h.severity, Rule.severityIn?_eq_find?]
  have htrees := insertTree_eq r index.trees
  change match (index.tree r.dependency.text).insert r.dependent r.severity with
    | .error old => insertTree r index.trees = .error old
    | .ok t => ∃ next, insertTree r index.trees = .ok next ∧
        ∀ y, next.lookup y = if y = r.dependency.text then some t else index.trees.lookup y
    at htrees
  cases hf : earlier.find? (Rule.samePair · r) with
  | some e =>
    have hpair : e.samePair r = true := by simpa using List.find?_some hf
    rw [hf, Option.map_some] at hplace
    rw [Tree.insert_of_taken hplace] at htrees
    -- the pair and the severity found in its place make up the earlier rule
    have hrule : { r with severity := e.severity } = e := by
      have hpair' : e.samePair { r with severity := e.severity } = true := hpair
      exact (Rule.eq_of_samePair hpair' rfl).symm
    simp only [insert, htrees, hrule]
  | none =>
    rw [hf, Option.map_none] at hplace
    obtain ⟨t, ht, hplain, hsev⟩ :=
      Tree.insert_of_free (v := r.severity) (h.plain r.dependency.text) hplace
    rw [ht] at htrees
    obtain ⟨next, hnext, hlookup⟩ := htrees
    have htree : ∀ x, (Index.mk next (index.ruleCount + 1)).tree x =
        if x = r.dependency.text then t else index.tree x := by
      intro x
      unfold tree
      rw [hlookup]
      by_cases hx : x = r.dependency.text
      · simp [hx]
      · simp [hx]
    refine ⟨⟨next, index.ruleCount + 1⟩, by simp only [insert, hnext], ?_, ?_, ?_⟩
    · intro d x
      rw [htree, Rule.severityIn?_append, Rule.severityIn?_singleton, ← h.severity]
      by_cases hx : x = r.dependency.text
      · subst hx
        rw [if_pos rfl, hsev]
        by_cases hd : d = r.dependent.text
        · subst hd
          simp [hplace]
        · simp [hd]
      · simp [hx]
    · intro x
      rw [htree]
      split
      · exact hplain
      · exact h.plain x
    · rw [List.length_append, List.length_singleton, ← h.count]

/-- **Making an index is the search for a clash.** It fails with the clash that the search finds,
and if there is none, the index holds all rules. -/
theorem foldlM_insert {index : Index} {earlier : List Rule} (h : index.Holds earlier)
    (rest : List Rule) :
    match Scan.clash? earlier rest with
    | some c => rest.foldlM insert index = .error c
    | none => ∃ next, rest.foldlM insert index = .ok next ∧ next.Holds (earlier ++ rest) := by
  induction rest generalizing index earlier with
  | nil => exact ⟨index, rfl, (List.append_nil earlier).symm ▸ h⟩
  | cons r rest ih =>
    have hstep := insert_step h r
    rw [List.foldlM_cons]
    simp only [Scan.clash?]
    cases hf : earlier.find? (Rule.samePair · r) with
    | some e =>
      rw [hf] at hstep
      simp only [hstep]
      rfl
    | none =>
      rw [hf] at hstep
      obtain ⟨next, hnext, hholds⟩ := hstep
      have hrest := ih hholds
      rw [List.append_assoc, List.singleton_append] at hrest
      rw [hnext]
      exact hrest

/-- Both ways of making a judge succeed together, and otherwise fail with the same conflict. -/
theorem ofRules_spec (rules : List Rule) :
    match Scan.clash? [] rules with
    | some c => ofRules rules = .error c
    | none => ∃ index, ofRules rules = .ok index ∧ index.Holds rules :=
  foldlM_insert holds_empty rules

theorem holds_of_ofRules {rules : List Rule} {index : Index} (h : ofRules rules = .ok index) :
    index.Holds rules ∧ Consistent rules := by
  have hspec := ofRules_spec rules
  cases hc : Scan.clash? [] rules with
  | some c =>
    rw [hc] at hspec
    simp only [h, reduceCtorEq] at hspec
  | none =>
    rw [hc] at hspec
    obtain ⟨made, hmade, hholds⟩ := hspec
    rw [h] at hmade
    cases hmade
    exact ⟨hholds, (Scan.clash?_eq_none_iff.1 hc).2⟩

theorem exists_ofRules_iff {rules : List Rule} :
    (∃ index, ofRules rules = .ok index) ↔ Consistent rules := by
  constructor
  · intro h
    obtain ⟨index, hindex⟩ := h
    exact (holds_of_ofRules hindex).2
  · intro hcons
    have hspec := ofRules_spec rules
    have hnone : Scan.clash? [] rules = none :=
      Scan.clash?_eq_none_iff.2 ⟨fun r _ e he => absurd he List.not_mem_nil, hcons⟩
    rw [hnone] at hspec
    obtain ⟨index, hindex, _⟩ := hspec
    exact ⟨index, hindex⟩

end Index

end ApiGate
