/-!
# Tables

A table gives values to keys, at most one to a key, and lists its entries in increasing order of the
keys. As for sets of texts, the order is part of the type: two tables that give every key the same
value are equal.

Everything about a table is said through `get?`: `get?_set` is what setting a key does, and
`mem_entries` is what the list of entries holds.
-/

namespace ApiGate

/-- Keys any two of which compare, so that a list of different keys has one increasing order. -/
class Ordered (κ : Type) [LT κ] : Prop where
  irrefl (k : κ) : ¬k < k
  trans {k l m : κ} : k < l → l < m → k < m
  eq_of_not_lt {k l : κ} : ¬k < l → ¬l < k → k = l

instance : Ordered String where
  irrefl := String.lt_irrefl
  trans := String.lt_trans
  eq_of_not_lt h h' := String.le_antisymm h' h

/-- Values for keys, with the keys in increasing order. -/
structure Table (κ α : Type) [LT κ] where
  entries : List (κ × α)
  /-- No key is out of place or repeated. -/
  sorted : entries.Pairwise (·.1 < ·.1)

namespace Table

variable {κ α : Type} [LT κ]

def empty : Table κ α := ⟨[], .nil⟩

variable [DecidableEq κ]

def get? (t : Table κ α) (k : κ) : Option α :=
  (t.entries.find? (·.1 = k)).map (·.2)

@[simp] theorem get?_empty (k : κ) : (empty : Table κ α).get? k = none := rfl

@[simp] theorem mem_entries [Ordered κ] {t : Table κ α} {k : κ} {a : α} :
    (k, a) ∈ t.entries ↔ t.get? k = some a := by
  obtain ⟨l, hl⟩ := t
  simp only [get?]
  induction l with
  | nil => simp
  | cons e rest ih =>
    obtain ⟨l, b⟩ := e
    obtain ⟨hlow, hrest⟩ := List.pairwise_cons.1 hl
    rw [List.mem_cons, List.find?_cons]
    by_cases he : l = k
    · -- the first entry has the key, so no later one can
      have hnone : (k, a) ∉ rest := fun hmem => Ordered.irrefl k (he ▸ hlow (k, a) hmem)
      simp [he, hnone, eq_comm]
    · have hne : (k, a) ≠ (l, b) := fun h => he (congrArg Prod.fst h).symm
      simp only [he, decide_false, ih hrest, hne, false_or]

variable [DecidableLT κ]

/-- Gives a key a value, in a list of entries in increasing order. -/
def setIn (k : κ) (a : α) : List (κ × α) → List (κ × α)
  | [] => [(k, a)]
  | (l, b) :: rest =>
    if k < l then (k, a) :: (l, b) :: rest
    else if k = l then (k, a) :: rest
    else (l, b) :: setIn k a rest

theorem of_mem_setIn {k : κ} {a : α} {e : κ × α} {l : List (κ × α)} (h : e ∈ setIn k a l) :
    e = (k, a) ∨ e ∈ l := by
  induction l with
  | nil => exact Or.inl (List.mem_singleton.1 h)
  | cons f rest ih =>
    simp only [setIn] at h
    split at h
    · exact List.mem_cons.1 h
    · split at h
      · exact (List.mem_cons.1 h).imp_right (List.mem_cons_of_mem f)
      · rcases List.mem_cons.1 h with rfl | h
        · exact Or.inr List.mem_cons_self
        · exact (ih h).imp_right (List.mem_cons_of_mem f)

variable [Ordered κ]

theorem sorted_setIn {k : κ} {a : α} {l : List (κ × α)} (h : l.Pairwise (·.1 < ·.1)) :
    (setIn k a l).Pairwise (·.1 < ·.1) := by
  induction l with
  | nil => exact List.pairwise_singleton _ _
  | cons e rest ih =>
    obtain ⟨hlow, hrest⟩ := List.pairwise_cons.1 h
    simp only [setIn]
    split
    · rename_i hlt
      refine List.pairwise_cons.2 ⟨?_, h⟩
      intro f hf
      rcases List.mem_cons.1 hf with rfl | hf
      · exact hlt
      · exact Ordered.trans hlt (hlow f hf)
    · rename_i hge
      split
      · rename_i heq
        exact List.pairwise_cons.2 ⟨fun f hf => heq ▸ hlow f hf, hrest⟩
      · rename_i hne
        refine List.pairwise_cons.2 ⟨?_, ih hrest⟩
        intro f hf
        rcases of_mem_setIn hf with rfl | hf
        · -- neither before nor equal
          exact Decidable.byContradiction fun hgt => hne (Ordered.eq_of_not_lt hge hgt)
        · exact hlow f hf

/-- The table in which a key has another value. -/
def set (t : Table κ α) (k : κ) (a : α) : Table κ α :=
  ⟨setIn k a t.entries, sorted_setIn t.sorted⟩

@[simp, grind =] theorem get?_set (t : Table κ α) (k l : κ) (a : α) :
    (t.set k a).get? l = if l = k then some a else t.get? l := by
  obtain ⟨entries, hsorted⟩ := t
  simp only [get?, set]
  induction entries with
  | nil =>
    by_cases h : k = l
    · simp [setIn, h]
    · simp [setIn, h, Ne.symm h]
  | cons e rest ih =>
    have hrest := (List.pairwise_cons.1 hsorted).2
    simp only [setIn]
    split
    · -- the key comes before the first entry
      by_cases h : k = l
      · simp [h]
      · simp [h, Ne.symm h]
    · split
      · -- the first entry has the key
        rename_i he
        by_cases h : k = l
        · simp [h]
        · have he' : ¬e.1 = l := fun h' => h (he.trans h')
          simp [h, Ne.symm h, he']
      · -- the key comes after the first entry
        rename_i hne
        by_cases h : e.1 = l
        · have h' : ¬l = k := fun hlk => hne (hlk.symm.trans h.symm)
          simp [h, h']
        · simpa [h] using ih hrest

end Table

end ApiGate
