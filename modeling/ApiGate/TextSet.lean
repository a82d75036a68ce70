/-!
# Sets of texts

A finite set of texts, kept as its members in increasing order by code point. The order is part of
the type, so that two sets with the same members are equal, and listing one needs no sorting.

Every operation is described by what it does to membership. These lemmas are for `simp`, so that
members of a set are members of the lists it was made of.
-/

namespace ApiGate

structure TextSet where
  toList : List String
  /-- No member is out of place or repeated. -/
  sorted : toList.Pairwise (· < ·)
  deriving DecidableEq

namespace TextSet

instance : Membership String TextSet := ⟨fun s t => t ∈ s.toList⟩

instance (s : TextSet) (t : String) : Decidable (t ∈ s) :=
  inferInstanceAs (Decidable (t ∈ s.toList))

@[simp] theorem mem_toList {s : TextSet} {t : String} : t ∈ s.toList ↔ t ∈ s := Iff.rfl

/-- Puts a text into its place in an increasing list. -/
def insertInto (t : String) : List String → List String
  | [] => [t]
  | u :: rest =>
    if t < u then t :: u :: rest
    else if t = u then u :: rest
    else u :: insertInto t rest

@[simp] theorem mem_insertInto {t u : String} {l : List String} :
    u ∈ insertInto t l ↔ u = t ∨ u ∈ l := by
  induction l with
  | nil => simp [insertInto]
  | cons v rest ih =>
    simp only [insertInto]
    split
    · simp
    · split
      · rename_i h
        subst h
        simp
      · simp only [List.mem_cons, ih]
        exact or_left_comm

theorem sorted_insertInto {t : String} {l : List String} (h : l.Pairwise (· < ·)) :
    (insertInto t l).Pairwise (· < ·) := by
  induction l with
  | nil => simp [insertInto]
  | cons v rest ih =>
    rw [List.pairwise_cons] at h
    simp only [insertInto]
    split
    · rename_i htv
      rw [List.pairwise_cons, List.pairwise_cons]
      refine ⟨?_, h⟩
      intro w hw
      rcases List.mem_cons.1 hw with rfl | hw
      · exact htv
      · exact String.lt_trans htv (h.1 w hw)
    · split
      · exact List.pairwise_cons.2 h
      · rename_i hge hne
        rw [List.pairwise_cons]
        refine ⟨?_, ih h.2⟩
        intro w hw
        rcases mem_insertInto.1 hw with rfl | hw
        · -- `w` is neither before `v` nor equal to it
          rcases Decidable.em (v < w) with hlt | hlt
          · exact hlt
          · exact absurd (String.le_antisymm hlt hge) hne
        · exact h.1 w hw

def empty : TextSet := ⟨[], .nil⟩

def insert (s : TextSet) (t : String) : TextSet :=
  ⟨insertInto t s.toList, sorted_insertInto s.sorted⟩

def ofList (l : List String) : TextSet :=
  l.foldl insert empty

@[simp, grind =] theorem mem_insert {s : TextSet} {t u : String} :
    u ∈ s.insert t ↔ u = t ∨ u ∈ s :=
  mem_insertInto

@[simp] theorem not_mem_empty {t : String} : t ∉ empty := List.not_mem_nil

@[simp] theorem mem_foldl_insert {l : List String} {s : TextSet} {u : String} :
    u ∈ l.foldl insert s ↔ u ∈ l ∨ u ∈ s := by
  induction l generalizing s with
  | nil => simp
  | cons t rest ih => simp [ih, or_left_comm, or_assoc]

@[simp, grind =] theorem mem_ofList {l : List String} {u : String} : u ∈ ofList l ↔ u ∈ l := by
  simp [ofList]

/-- Two sets with the same members are equal. -/
@[ext] theorem ext {s t : TextSet} (h : ∀ u, u ∈ s ↔ u ∈ t) : s = t := by
  obtain ⟨l, hl⟩ := s
  obtain ⟨m, hm⟩ := t
  suffices l = m by subst this; rfl
  replace h : ∀ u, u ∈ l ↔ u ∈ m := h
  induction l generalizing m with
  | nil =>
    cases m with
    | nil => rfl
    | cons v _ => exact absurd ((h v).2 List.mem_cons_self) List.not_mem_nil
  | cons a l ih =>
    cases m with
    | nil => exact absurd ((h a).1 List.mem_cons_self) List.not_mem_nil
    | cons b m =>
      rw [List.pairwise_cons] at hl hm
      -- each head is the least member
      have hab : a = b := by
        rcases List.mem_cons.1 ((h a).1 List.mem_cons_self) with hab | ham
        · exact hab
        · rcases List.mem_cons.1 ((h b).2 List.mem_cons_self) with hba | hbl
          · exact hba.symm
          · exact absurd (hm.1 a ham) (String.lt_asymm (hl.1 b hbl))
      subst hab
      refine congrArg (a :: ·) (ih hl.2 m hm.2 fun u => ?_)
      constructor
      · intro hu
        rcases List.mem_cons.1 ((h u).1 (List.mem_cons_of_mem _ hu)) with rfl | hu'
        · exact absurd (hl.1 u hu) (String.lt_irrefl u)
        · exact hu'
      · intro hu
        rcases List.mem_cons.1 ((h u).2 (List.mem_cons_of_mem _ hu)) with rfl | hu'
        · exact absurd (hm.1 u hu) (String.lt_irrefl u)
        · exact hu'

theorem toList_inj {s t : TextSet} : s.toList = t.toList ↔ s = t := by
  refine ⟨fun h => ext fun u => ?_, congrArg toList⟩
  rw [← mem_toList, h, mem_toList]

end TextSet

end ApiGate
