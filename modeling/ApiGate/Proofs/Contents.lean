import ApiGate.Proofs.Agreement
import ApiGate.Proofs.Making
import Mathlib.Data.List.Dedup

/-!
# What an index contains

An index that is made of rules contains these rules and nothing else. This says more than that it
answers as they do: no rule is in two places, and there is no place that is of no use.

* The entries of the trees are the rules in some order, and there are as many as are counted.
* There is one tree for each dependency, and none for anything else.
* Every place has a severity or something below it, so a tree holds no dead ends.
* The root of a tree stands above all parts and has no severity.

A forest has no root, so the last point needs one. `Node.insert` goes down from a root that could be
given a severity like any other place, and makes what is missing as it goes; that it builds the same
trees, with a root that is left alone, holds because a name has at least one part.

An insertion does one of four things (`Forest.Grows`): it starts a chain where there is nothing, it
fills a place that is there already, or it goes on below a place or beside it. What one insertion
keeps is shown case by case. What the making of an index keeps follows from it by one induction over
the rules (`Index.ofRules_induction`).
-/

namespace ApiGate

/-- A place in a tree: the severity of what ends there, and what is below it. -/
structure Node where
  severity : Option Severity
  below : Forest

namespace Forest

/-- All places of a forest. -/
def nodes : Forest → List Node
  | .nil => []
  | .cons _ s below rest => ⟨s, below⟩ :: (below.nodes ++ rest.nodes)

/-- Every place with nothing below it has a severity. -/
def Pruned (f : Forest) : Prop :=
  ∀ n ∈ f.nodes, n.below = .nil → n.severity ≠ none

theorem pruned_nil : Forest.nil.Pruned := fun _ hn => absurd hn List.not_mem_nil

theorem pruned_cons_iff {p : String} {s : Option Severity} {below rest : Forest} :
    (Forest.cons p s below rest).Pruned ↔
      (below = .nil → s ≠ none) ∧ below.Pruned ∧ rest.Pruned := by
  unfold Pruned
  rw [nodes, List.forall_mem_cons, List.forall_mem_append]

/-! ## One insertion -/

/-- What giving a path a severity makes of a forest. -/
inductive Grows (v : Severity) : Forest → List String → Forest → Prop where
  /-- There is nothing yet, so every place on the way is made. -/
  | fresh (p : String) (ps : List String) : Grows v .nil (p :: ps) (chain v (p :: ps))
  /-- The path ends at a place that was only on the way to others. -/
  | here (q : String) (below rest : Forest) :
      Grows v (.cons q none below rest) [q] (.cons q (some v) below rest)
  | inside {q : String} {s : Option Severity} {f g rest : Forest} {ps : List String} :
      ps ≠ [] → Grows v f ps g → Grows v (.cons q s f rest) (q :: ps) (.cons q s g rest)
  | beside {p q : String} {s : Option Severity} {under f g : Forest} {ps : List String} :
      p ≠ q → Grows v f (p :: ps) g → Grows v (.cons q s under f) (p :: ps) (.cons q s under g)

variable {v : Severity} {f g : Forest} {ps : List String}

theorem insert_beside {p q : String} {s : Option Severity} {below rest : Forest} (h : p ≠ q) :
    (Forest.cons q s below rest).insert v (p :: ps) =
      (rest.insert v (p :: ps)).map fun f => .cons q s below f := by
  simp [insert, h]

/-- **An insertion does one of four things.** -/
theorem grows_of_insert (hps : ps ≠ []) (h : f.insert v ps = .ok g) : Grows v f ps g := by
  induction f generalizing ps g with
  | nil =>
    cases ps with
    | nil => exact absurd rfl hps
    | cons p ps =>
      cases h
      exact Grows.fresh p ps
  | cons q s below rest ihb ihr =>
    rcases place_cases q ps with hps' | hps' | ⟨under, hnil, hps'⟩ | ⟨p, others, hp, hps'⟩
    · exact absurd hps' hps
    · subst hps'
      cases s with
      | none =>
        simp only [insert, if_true, Except.ok.injEq] at h
        subst h
        exact Grows.here q below rest
      | some old =>
        simp only [insert, if_true, reduceCtorEq] at h
    · subst hps'
      rw [insert_below hnil] at h
      obtain ⟨b, hb, rfl⟩ := map_eq_ok.1 h
      exact Grows.inside hnil (ihb hnil hb)
    · subst hps'
      rw [insert_beside hp] at h
      obtain ⟨r, hr, rfl⟩ := map_eq_ok.1 h
      exact Grows.beside hp (ihr hps hr)

theorem chain_ne_nil (hps : ps ≠ []) (v : Severity) : chain v ps ≠ .nil := by
  cases ps with
  | nil => exact absurd rfl hps
  | cons p ps =>
    cases ps with
    | nil => simp [chain]
    | cons p' ps => simp [chain]

theorem Grows.ne_nil (h : Grows v f ps g) : g ≠ .nil := by
  cases h with
  | fresh p ps => exact chain_ne_nil (List.cons_ne_nil p ps) v
  | here q below rest => simp
  | inside hps hg => simp
  | beside hp hg => simp

theorem entries_chain (hps : ps ≠ []) (v : Severity) : (chain v ps).entries = [(ps, v)] := by
  induction ps with
  | nil => exact absurd rfl hps
  | cons p ps ih =>
    cases ps with
    | nil => rfl
    | cons p' ps => simp [chain, entries, ih (List.cons_ne_nil p' ps)]

/-- An insertion adds its entry and changes no other. -/
theorem Grows.entries (h : Grows v f ps g) : g.entries.Perm ((ps, v) :: f.entries) := by
  induction h with
  | fresh p ps => rw [entries_chain (List.cons_ne_nil p ps)]; exact List.Perm.refl _
  | here q below rest => exact List.Perm.refl _
  | @inside q s f g rest ps _ _ ih =>
    have hbelow : (g.entries.map fun e => (q :: e.1, e.2)).Perm
        ((q :: ps, v) :: f.entries.map fun e => (q :: e.1, e.2)) := ih.map _
    simp only [Forest.entries]
    refine ((hbelow.append_left _).append_right _).trans ?_
    exact List.perm_middle.append_right _
  | beside _ _ ih =>
    simp only [Forest.entries]
    exact (ih.append_left _).trans List.perm_middle

theorem pruned_chain (ps : List String) (v : Severity) : (chain v ps).Pruned := by
  induction ps with
  | nil => exact pruned_nil
  | cons p ps ih =>
    cases ps with
    | nil => exact pruned_cons_iff.2 ⟨fun _ => Option.some_ne_none v, pruned_nil, pruned_nil⟩
    | cons p' ps =>
      -- a place without a severity is made only on the way to another
      refine pruned_cons_iff.2 ⟨fun hnil => ?_, ih, pruned_nil⟩
      exact absurd hnil (chain_ne_nil (List.cons_ne_nil p' ps) v)

theorem Grows.pruned (h : Grows v f ps g) (hf : f.Pruned) : g.Pruned := by
  induction h with
  | fresh p ps => exact pruned_chain (p :: ps) v
  | here q below rest =>
    obtain ⟨_, hbelow, hrest⟩ := pruned_cons_iff.1 hf
    exact pruned_cons_iff.2 ⟨fun _ => Option.some_ne_none v, hbelow, hrest⟩
  | inside _ hg ih =>
    obtain ⟨_, hbelow, hrest⟩ := pruned_cons_iff.1 hf
    exact pruned_cons_iff.2 ⟨fun hnil => absurd hnil hg.ne_nil, ih hbelow, hrest⟩
  | beside _ _ ih =>
    obtain ⟨hleaf, hbelow, hrest⟩ := pruned_cons_iff.1 hf
    exact pruned_cons_iff.2 ⟨hleaf, hbelow, ih hrest⟩

/-! ## A forest with a root -/

/-- The place for a part; one that is missing is as good as one without a severity. -/
def child : Forest → String → Node
  | .nil, _ => ⟨none, .nil⟩
  | .cons q s below rest, p => if p = q then ⟨s, below⟩ else rest.child p

/-- The forest with this place for a part. -/
def setChild : Forest → String → Node → Forest
  | .nil, p, n => .cons p n.severity n.below .nil
  | .cons q s below rest, p, n =>
    if p = q then .cons q n.severity n.below rest else .cons q s below (rest.setChild p n)

end Forest

namespace Node

/-- Goes down the parts and gives the place at their end a severity, be it the first one; the error
is the severity it already has. -/
def insert (v : Severity) : Node → List String → Except Severity Node
  | n, [] =>
    match n.severity with
    | some old => .error old
    | none => .ok { n with severity := some v }
  | n, p :: ps => ((n.below.child p).insert v ps).map fun c =>
      { n with below := n.below.setChild p c }

theorem insert_cons (v : Severity) (n : Node) (p : String) (ps : List String) :
    n.insert v (p :: ps) = ((n.below.child p).insert v ps).map fun c =>
      { n with below := n.below.setChild p c } := rfl

theorem insert_nil_below {v : Severity} {ps : List String} (hps : ps ≠ [])
    (s : Option Severity) : insert v ⟨s, .nil⟩ ps = .ok ⟨s, Forest.chain v ps⟩ := by
  induction ps generalizing s with
  | nil => exact absurd rfl hps
  | cons p ps ih =>
    cases ps with
    | nil => rfl
    | cons p' ps =>
      have hmade : insert v (Forest.nil.child p) (p' :: ps) =
          .ok ⟨none, Forest.chain v (p' :: ps)⟩ := ih (List.cons_ne_nil p' ps) none
      rw [insert_cons, hmade]
      rfl

/-- **A path that has a part leaves the place it starts from as it is.** -/
theorem insert_eq {v : Severity} {f : Forest} {ps : List String} (hps : ps ≠ [])
    (s : Option Severity) : insert v ⟨s, f⟩ ps = (f.insert v ps).map (Node.mk s) := by
  induction f generalizing ps s with
  | nil =>
    rw [insert_nil_below hps]
    cases ps with
    | nil => exact absurd rfl hps
    | cons p ps => rfl
  | cons q s' below rest ihb ihr =>
    rcases Forest.place_cases q ps with hps' | hps' | ⟨under, hnil, hps'⟩ | ⟨p, others, hp, hps'⟩
    · exact absurd hps' hps
    · subst hps'
      cases s' with
      | none => simp [insert, Forest.child, Forest.setChild, Forest.insert, Except.map]
      | some old => simp [insert, Forest.child, Forest.insert, Except.map]
    · subst hps'
      rw [Forest.insert_below hnil, insert_cons, map_map]
      simp only [Forest.child, if_true, ihb hnil s', map_map]
      congr 1
      funext b
      simp [Forest.setChild]
    · subst hps'
      have hrest := ihr hps s
      rw [insert_cons] at hrest
      rw [Forest.insert_beside hp, insert_cons, map_map]
      -- what is done to the rest is done behind the place for `q`
      have hbehind := congrArg (Except.map fun n => Node.mk s (.cons q s' below n.below)) hrest
      rw [map_map, map_map] at hbehind
      simpa [Forest.child, Forest.setChild, hp] using hbehind

end Node

/-! ## An insertion into an index -/

namespace Tree

variable {t t' : Tree} {n : Name} {v : Severity}

/-- An insertion fills the wildcard, which was free, or grows the names. -/
theorem insert_cases (h : t.insert n v = .ok t') :
    (n.text = Name.wildcard ∧ t.wildcard = none ∧ t' = { t with wildcard := some v }) ∨
      (n.text ≠ Name.wildcard ∧ ∃ names, t.names.insert v (Name.parts n.text) = .ok names ∧
        t' = { t with names := names }) := by
  by_cases hw : n.text = Name.wildcard
  · cases hs : t.wildcard with
    | some old => simp [insert, hw, hs] at h
    | none =>
      have hfilled : { t with wildcard := some v } = t' := by simpa [insert, hw, hs] using h
      exact Or.inl ⟨hw, rfl, hfilled.symm⟩
  · obtain ⟨names, hnames, rfl⟩ : ∃ names, t.names.insert v (Name.parts n.text) = .ok names ∧
        { t with names } = t' := by simpa [insert, hw] using h
    exact Or.inr ⟨hw, names, hnames, rfl⟩

theorem entries_insert (h : t.insert n v = .ok t') :
    t'.entries.Perm ((n.text, v) :: t.entries) := by
  rcases insert_cases h with ⟨hw, hfree, rfl⟩ | ⟨_, names, hnames, rfl⟩
  · simp only [entries, hfree, hw, Option.toList_none, Option.toList_some, List.map_nil,
      List.map_cons, List.append_nil]
    exact List.perm_append_comm
  · have hgrows := Forest.grows_of_insert (Name.parts_ne_nil n.text) hnames
    -- the path of the entry, joined again, is the name
    have hnamed := hgrows.entries.map fun e => (".".intercalate e.1, e.2)
    rw [List.map_cons, Name.join_parts] at hnamed
    exact hnamed.append_right _

theorem pruned_insert (h : t.insert n v = .ok t') (hp : t.names.Pruned) : t'.names.Pruned := by
  rcases insert_cases h with ⟨_, _, rfl⟩ | ⟨_, names, hnames, rfl⟩
  · exact hp
  · exact (Forest.grows_of_insert (Name.parts_ne_nil n.text) hnames).pruned hp

end Tree

/-- A rule as an entry: dependent, dependency and severity. -/
def Rule.entry (r : Rule) : String × String × Severity :=
  (r.dependent.text, r.dependency.text, r.severity)

namespace Index

/-- The tree of the dependency is there and grows, or it is made. -/
theorem insertTree_cases {r : Rule} {trees next : List (String × Tree)}
    (h : insertTree r trees = .ok next) :
    (∃ before t t' after, trees = before ++ (r.dependency.text, t) :: after ∧
      t.insert r.dependent r.severity = .ok t' ∧
      next = before ++ (r.dependency.text, t') :: after) ∨
    (r.dependency.text ∉ trees.map Prod.fst ∧
      ∃ t', Tree.empty.insert r.dependent r.severity = .ok t' ∧
        next = trees ++ [(r.dependency.text, t')]) := by
  induction trees generalizing next with
  | nil =>
    obtain ⟨t', ht', rfl⟩ := map_eq_ok.1 h
    exact Or.inr ⟨List.not_mem_nil, t', ht', rfl⟩
  | cons e rest ih =>
    obtain ⟨x, t⟩ := e
    rw [insertTree] at h
    by_cases hx : x = r.dependency.text
    · rw [if_pos hx] at h
      obtain ⟨t', ht', rfl⟩ := map_eq_ok.1 h
      subst hx
      exact Or.inl ⟨[], t, t', rest, rfl, ht', rfl⟩
    · rw [if_neg hx] at h
      obtain ⟨more, hmore, rfl⟩ := map_eq_ok.1 h
      rcases ih hmore with ⟨before, t, t', after, rfl, ht', rfl⟩ | ⟨hnew, t', ht', rfl⟩
      · exact Or.inl ⟨(x, _) :: before, t, t', after, rfl, ht', rfl⟩
      · refine Or.inr ⟨?_, t', ht', rfl⟩
        rw [List.map_cons, List.mem_cons, not_or]
        exact ⟨Ne.symm hx, hnew⟩

/-- The root that grows when the names of the rules for `x` are put in one after another, starting
from a root with nothing below it. -/
def growth (rules : List Rule) (x : String) : Except Severity Node :=
  (rules.filter fun r => r.dependency.text = x ∧ r.dependent.text ≠ Name.wildcard).foldlM
    (fun root r => root.insert r.severity (Name.parts r.dependent.text)) ⟨none, .nil⟩

/-! ## The making of an index -/

theorem insert_eq_ok {index next : Index} {r : Rule} (h : index.insert r = .ok next) :
    ∃ trees, insertTree r index.trees = .ok trees ∧ next = ⟨trees, index.ruleCount + 1⟩ := by
  unfold insert at h
  cases htrees : insertTree r index.trees with
  | error old =>
    rw [htrees] at h
    cases h
  | ok trees =>
    rw [htrees] at h
    cases h
    exact ⟨trees, rfl, rfl⟩

section Step

variable {index next : Index} {r : Rule}

/-- The tree of the dependency takes the rule, and the other trees stay as they are. -/
theorem tree_of_insert (h : index.insert r = .ok next) :
    ∃ t, (index.tree r.dependency.text).insert r.dependent r.severity = .ok t ∧
      ∀ x, next.tree x = if x = r.dependency.text then t else index.tree x := by
  obtain ⟨trees, htrees, rfl⟩ := insert_eq_ok h
  have hspec := insertTree_eq r index.trees
  unfold tree
  cases ht : ((index.trees.lookup r.dependency.text).getD .empty).insert r.dependent r.severity with
  | error old =>
    rw [ht] at hspec
    simp only [htrees, reduceCtorEq] at hspec
  | ok t =>
    rw [ht] at hspec
    obtain ⟨made, hmade, hlookup⟩ := hspec
    cases htrees.symm.trans hmade
    refine ⟨t, rfl, fun x => ?_⟩
    simp only [hlookup]
    split
    · rfl
    · rfl

theorem entries_of_insert (h : index.insert r = .ok next) :
    next.entries.Perm (r.entry :: index.entries) := by
  obtain ⟨trees, htrees, rfl⟩ := insert_eq_ok h
  have htree {t t' : Tree} (ht : t.insert r.dependent r.severity = .ok t') :
      (t'.entries.map fun e => (e.1, r.dependency.text, e.2)).Perm
        (r.entry :: t.entries.map fun e => (e.1, r.dependency.text, e.2)) :=
    (Tree.entries_insert ht).map _
  unfold entries
  rcases insertTree_cases htrees with ⟨before, t, t', after, hold, ht', rfl⟩ | ⟨_, t', ht', rfl⟩
  · rw [hold]
    simp only [List.flatMap_append, List.flatMap_cons]
    exact (((htree ht').append_right _).append_left _).trans List.perm_middle
  · have hmade : (t'.entries.map fun e => (e.1, r.dependency.text, e.2)).Perm [r.entry] :=
      htree ht'
    simp only [List.flatMap_append, List.flatMap_cons, List.flatMap_nil, List.append_nil]
    exact (hmade.append_left _).trans (List.perm_append_singleton _ _)

theorem pruned_of_insert (h : index.insert r = .ok next) {x : String}
    (hp : ∀ y, (index.tree y).names.Pruned) : (next.tree x).names.Pruned := by
  obtain ⟨t, ht, htree⟩ := tree_of_insert h
  rw [htree]
  split
  · exact Tree.pruned_insert ht (hp r.dependency.text)
  · exact hp x

theorem perm_dedup_iff {l m : List String} :
    l.Perm m.dedup ↔ l.Nodup ∧ ∀ x, x ∈ l ↔ x ∈ m := by
  constructor
  · intro h
    exact ⟨h.nodup_iff.2 (List.nodup_dedup m), fun x => h.mem_iff.trans List.mem_dedup⟩
  · intro h
    refine (List.perm_ext_iff_of_nodup h.1 (List.nodup_dedup m)).2 fun x => ?_
    rw [h.2, List.mem_dedup]

theorem trees_of_insert (h : index.insert r = .ok next) {earlier : List Rule}
    (hk : (index.trees.map Prod.fst).Perm (earlier.map (·.dependency.text)).dedup) :
    (next.trees.map Prod.fst).Perm ((earlier ++ [r]).map (·.dependency.text)).dedup := by
  obtain ⟨trees, htrees, rfl⟩ := insert_eq_ok h
  obtain ⟨hnodup, hmem⟩ := perm_dedup_iff.1 hk
  rw [perm_dedup_iff]
  rcases insertTree_cases htrees with ⟨before, t, t', after, hold, _, rfl⟩ | ⟨hnew, t', _, rfl⟩
  · have hkeys : (before ++ (r.dependency.text, t') :: after).map Prod.fst =
        index.trees.map Prod.fst := by
      rw [hold]
      simp
    have hold' : r.dependency.text ∈ index.trees.map Prod.fst := by
      rw [hold]
      simp
    refine ⟨hkeys.symm ▸ hnodup, fun x => ?_⟩
    rw [hkeys, hmem, List.map_append, List.mem_append, List.map_singleton, List.mem_singleton]
    constructor
    · exact Or.inl
    · intro hx
      rcases hx with hx | rfl
      · exact hx
      · exact (hmem _).1 hold'
  · rw [List.map_append, List.map_singleton]
    constructor
    · rw [← List.concat_eq_append]
      exact hnodup.concat hnew
    · intro x
      rw [List.mem_append, hmem, List.map_append, List.mem_append, List.map_singleton]

theorem growth_concat (rules : List Rule) (r : Rule) (x : String) :
    growth (rules ++ [r]) x =
      if r.dependency.text = x ∧ r.dependent.text ≠ Name.wildcard then
        (growth rules x).bind fun root => root.insert r.severity (Name.parts r.dependent.text)
      else growth rules x := by
  unfold growth
  rw [List.filter_append, List.foldlM_append, List.filter_singleton]
  split
  · rename_i h
    rw [decide_eq_true h, cond_true]
    simp only [List.foldlM_cons, List.foldlM_nil, bind_pure]
    rfl
  · rename_i h
    rw [decide_eq_false h, cond_false]
    simp only [List.foldlM_nil, bind_pure]

theorem root_of_insert (h : index.insert r = .ok next) {earlier : List Rule} (x : String)
    (hroot : growth earlier x = .ok ⟨none, (index.tree x).names⟩) :
    growth (earlier ++ [r]) x = .ok ⟨none, (next.tree x).names⟩ := by
  obtain ⟨t, ht, htree⟩ := tree_of_insert h
  rw [growth_concat, htree, hroot]
  by_cases hx : x = r.dependency.text
  · subst hx
    rcases Tree.insert_cases ht with ⟨hw, _, rfl⟩ | ⟨hw, names, hnames, rfl⟩
    · -- the wildcard has a slot apart from the names
      simp [hw]
    · have hgrown : (Node.mk none (index.tree r.dependency.text).names).insert r.severity
          (Name.parts r.dependent.text) = .ok ⟨none, names⟩ := by
        rw [Node.insert_eq (Name.parts_ne_nil _), hnames]
        rfl
      simp [hw, Except.bind, hgrown]
  · rw [if_neg fun hr => hx hr.1.symm, if_neg hx]

end Step

/-- What holds of the empty index, and goes on to hold when a rule is added, holds of every index
for the rules it is made of. -/
theorem ofRules_induction {P : Index → List Rule → Prop} (start : P empty [])
    (step : ∀ index next earlier r, P index earlier → index.insert r = .ok next →
      P next (earlier ++ [r]))
    {rules : List Rule} {index : Index} (h : ofRules rules = .ok index) : P index rules := by
  have hrun : ∀ (rest earlier : List Rule) (made : Index), P made earlier →
      rest.foldlM insert made = .ok index → P index (earlier ++ rest) := by
    intro rest
    induction rest with
    | nil =>
      intro earlier made hmade hrest
      cases hrest
      rw [List.append_nil]
      exact hmade
    | cons r rest ih =>
      intro earlier made hmade hrest
      rw [List.foldlM_cons] at hrest
      obtain ⟨next, hnext, hlater⟩ := bind_eq_ok.1 hrest
      have hall := ih (earlier ++ [r]) next (step made next earlier r hmade hnext) hlater
      rwa [List.append_assoc, List.singleton_append] at hall
  exact hrun rules [] empty start h

section Run

variable {rules : List Rule} {index : Index}

theorem entries_of_ofRules (h : ofRules rules = .ok index) :
    index.entries.Perm (rules.map Rule.entry) := by
  refine ofRules_induction (P := fun index rules => index.entries.Perm (rules.map Rule.entry))
    (List.Perm.refl []) ?_ h
  intro index next earlier r hearlier hr
  rw [List.map_append, List.map_singleton]
  refine (entries_of_insert hr).trans ?_
  exact (hearlier.cons r.entry).trans (List.perm_append_singleton _ _).symm

theorem trees_of_ofRules (h : ofRules rules = .ok index) :
    (index.trees.map Prod.fst).Perm (rules.map (·.dependency.text)).dedup :=
  ofRules_induction
    (P := fun index rules =>
      (index.trees.map Prod.fst).Perm (rules.map (·.dependency.text)).dedup)
    (List.Perm.refl []) (fun _ _ _ _ hearlier hr => trees_of_insert hr hearlier) h

theorem root_of_ofRules (h : ofRules rules = .ok index) (x : String) :
    growth rules x = .ok ⟨none, (index.tree x).names⟩ :=
  ofRules_induction (P := fun index rules => growth rules x = .ok ⟨none, (index.tree x).names⟩)
    rfl (fun _ _ _ _ hearlier hr => root_of_insert hr x hearlier) h

theorem pruned_of_ofRules (h : ofRules rules = .ok index) (x : String) :
    (index.tree x).names.Pruned :=
  ofRules_induction (P := fun index _ => ∀ x, (index.tree x).names.Pruned)
    (fun _ => Forest.pruned_nil) (fun _ _ _ _ hearlier hr _ => pruned_of_insert hr hearlier) h x

theorem lookup_eq_of_mem {trees : List (String × Tree)} (hone : (trees.map Prod.fst).Nodup)
    {x : String} {t : Tree} (ht : (x, t) ∈ trees) : trees.lookup x = some t := by
  induction trees with
  | nil => exact absurd ht List.not_mem_nil
  | cons e rest ih =>
    obtain ⟨y, u⟩ := e
    obtain ⟨hfirst, hrest⟩ := List.nodup_cons.1 hone
    rw [lookup_cons_eq]
    rcases List.mem_cons.1 ht with ht | ht
    · cases ht
      exact if_pos rfl
    · have hxy : x ≠ y := fun hxy => hfirst (hxy ▸ List.mem_map.2 ⟨(x, t), ht, rfl⟩)
      rw [if_neg hxy]
      exact ih hrest ht

/-- With one tree for each dependency, looking one up misses none. -/
theorem tree_eq_of_mem (h : ofRules rules = .ok index) {x : String} {t : Tree}
    (ht : (x, t) ∈ index.trees) : index.tree x = t := by
  unfold tree
  rw [lookup_eq_of_mem (perm_dedup_iff.1 (trees_of_ofRules h)).1 ht, Option.getD_some]

end Run

/-- An index contains a list of rules, each of them once, and nothing else. -/
structure Contains (index : Index) (rules : List Rule) : Prop where
  /-- The entries of its trees are the rules, in some order. -/
  entries : index.entries.Perm (rules.map Rule.entry)
  count : index.ruleCount = index.entries.length
  /-- There is one tree for each dependency, and there are no others. -/
  trees : (index.trees.map Prod.fst).Perm (rules.map (·.dependency.text)).dedup
  /-- The names of each tree grow from a root that is not given a severity. -/
  root (x : String) (t : Tree) : (x, t) ∈ index.trees → growth rules x = .ok ⟨none, t.names⟩
  /-- Below its root, a tree has no place without a severity that leads to nothing. -/
  pruned (x : String) (t : Tree) : (x, t) ∈ index.trees → t.names.Pruned

/--
**An index contains the rules it is made of, and nothing else.**

Whatever rules an index is made of, its trees hold an entry for each of them and no other entry, and
the number of entries is what it counts. There is one tree for each dependency. The root of a tree
has no severity, and every other place with nothing below it has one.
-/
theorem ofRules_contains {rules : List Rule} {index : Index} (h : ofRules rules = .ok index) :
    index.Contains rules where
  entries := entries_of_ofRules h
  count := by
    rw [(holds_of_ofRules h).1.count, (entries_of_ofRules h).length_eq, List.length_map]
  trees := trees_of_ofRules h
  root x t ht := by
    rw [root_of_ofRules h, tree_eq_of_mem h ht]
  pruned x t ht := by
    rw [← tree_eq_of_mem h ht]
    exact pruned_of_ofRules h x

/-- Three rules make one tree, in which two places are only on the way to others. -/
theorem ofRules_contains_nested :
    ofRules nestedRules = .ok nestedIndex ∧ nestedIndex.Contains nestedRules ∧
      nestedIndex.entries = [("com.foo", "sun.Unsafe", .warn),
        ("com.foo.bar.Baz", "sun.Unsafe", .fail), ("*", "sun.Unsafe", .ignore)] := by
  have hmade : ofRules nestedRules = .ok nestedIndex := by rfl
  exact ⟨hmade, ofRules_contains hmade, by decide +kernel⟩

end Index

end ApiGate
