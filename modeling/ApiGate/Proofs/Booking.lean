import ApiGate.Ledger

/-!
# What a ledger holds

A ledger is filled step by step, from usages that come in any order and name a type as often as they
like. What it holds at the end does not show any of that: under a type and a severity stand exactly
the dependencies of the type that were entered and are judged so.

* `Ledger.Books` says this of a ledger and the pairs that went into it. Every step keeps it, with
  the pairs of that step added.
* Nothing empty is stored. A type may have an empty table, but a severity that is in a table has a
  dependency.

`Ledger.ofUsages_induction` is the way to say something of a ledger that usages have filled.
-/

namespace ApiGate

namespace Grades

@[simp] theorem graded_empty (s : Severity) : graded Table.empty s = TextSet.empty := rfl

@[simp] theorem graded_add (g : Grades) (s s' : Severity) (d : String) :
    (g.add s d).graded s' = if s' = s then (g.graded s).insert d else g.graded s' := by
  by_cases h : s' = s
  · simp [add, graded, h]
  · simp [add, graded, h]

/-- No severity is there for nothing. -/
def Filled (g : Grades) : Prop := ∀ s ds, g.get? s = some ds → ∃ d, d ∈ ds

theorem filled_empty : Filled .empty := by
  intro s ds h
  cases h

theorem Filled.add {g : Grades} (h : g.Filled) (s : Severity) (d : String) :
    (g.add s d).Filled := by
  intro s' ds hget
  by_cases hs : s' = s
  · have hds : (g.graded s).insert d = ds := by simpa [Grades.add, hs] using hget
    exact ⟨d, by simp [← hds]⟩
  · exact h s' ds (by simpa [Grades.add, hs] using hget)

/-- In a filled table, what a severity is given and what stands under it are the same, as far as
anything does. -/
theorem Filled.get?_eq_some_iff {g : Grades} (h : g.Filled) {s : Severity} {ds : TextSet} :
    g.get? s = some ds ↔ g.graded s = ds ∧ ∃ d, d ∈ ds := by
  unfold graded
  constructor
  · intro hget
    rw [hget]
    exact ⟨rfl, h s ds hget⟩
  · intro hgraded
    obtain ⟨hget, d, hd⟩ := hgraded
    cases hs : g.get? s with
    | some ds' => simpa [hs] using hget
    | none =>
      -- nothing stands under a severity that is not there
      have hempty : TextSet.empty = ds := by simpa [hs] using hget
      simp [← hempty] at hd

end Grades

namespace Ledger

theorem grades_of_get? {l : Ledger} {t : String} {g : Grades} (h : l.types.get? t = some g) :
    l.grades t = g := by
  unfold grades
  rw [h, Option.getD_some]

@[simp] theorem grades_empty (t : String) : empty.grades t = .empty := rfl

@[simp] theorem grades_openType (l : Ledger) (t u : String) :
    (l.openType t).grades u = l.grades u := by
  by_cases h : u = t
  · simp [openType, grades, h]
  · simp [openType, grades, h]

@[simp] theorem grades_enter (l : Ledger) (t u d : String) (s : Severity) :
    (l.enter t d s).grades u = if u = t then (l.grades t).add s d else l.grades u := by
  by_cases h : u = t
  · simp [enter, grades, h]
  · simp [enter, grades, h]

theorem mem_graded_enter {l : Ledger} {t u d e : String} {s s' : Severity} :
    e ∈ ((l.enter t d s).grades u).graded s' ↔
      e ∈ (l.grades u).graded s' ∨ (u = t ∧ e = d ∧ s' = s) := by
  by_cases hu : u = t
  · -- the type at hand: one severity changes
    subst hu
    by_cases hs : s' = s
    · simp [hs, or_comm]
    · simp [hs]
  · simp [hu]

/-- The ledger holds the given pairs, each under its severity, and nothing else. -/
structure Books (judge : Judge) (default : Severity) (l : Ledger) (pairs : List (String × String)) :
    Prop where
  /-- A dependency stands under a severity iff it was entered and is judged so. -/
  booked (t d : String) (s : Severity) :
    d ∈ (l.grades t).graded s ↔ (t, d) ∈ pairs ∧ judge.judgeOr t d default = s
  /-- Nothing empty is stored. -/
  filled (t : String) : (l.grades t).Filled

namespace Books

variable {judge : Judge} {default : Severity} {l : Ledger} {pairs : List (String × String)}

theorem empty : Ledger.empty.Books judge default [] where
  booked t d s := by simp
  filled t := by simpa using Grades.filled_empty

theorem openType (h : l.Books judge default pairs) (t : String) :
    (l.openType t).Books judge default pairs where
  booked u d s := by simpa using h.booked u d s
  filled u := by simpa using h.filled u

theorem enter (h : l.Books judge default pairs) (t d : String) :
    (l.enter t d (judge.judgeOr t d default)).Books judge default (pairs ++ [(t, d)]) where
  booked u e s := by
    rw [mem_graded_enter, h.booked, List.mem_append, List.mem_singleton, Prod.mk.injEq]
    constructor
    · intro hmem
      rcases hmem with ⟨hmem, hs⟩ | ⟨hu, he, hs⟩
      · exact ⟨Or.inl hmem, hs⟩
      · subst hu he
        exact ⟨Or.inr ⟨rfl, rfl⟩, hs.symm⟩
    · intro hmem
      obtain ⟨hmem | ⟨hu, he⟩, hs⟩ := hmem
      · exact Or.inl ⟨hmem, hs⟩
      · subst hu he
        exact Or.inr ⟨rfl, rfl, hs.symm⟩
  filled u := by
    by_cases hu : u = t
    · simpa [hu] using (h.filled t).add _ d
    · simpa [hu] using h.filled u

end Books

/-! ## Filling a ledger -/

section Induction

variable {judge : Judge} {default : Severity} {P : Ledger → List (String × String) → Prop}

/-- Entering a usage is opening its type and then entering its pairs, one after another. -/
theorem enterUsage_induction (openType : ∀ l pairs t, P l pairs → P (l.openType t) pairs)
    (enter : ∀ l pairs t d, P l pairs →
      P (l.enter t d (judge.judgeOr t d default)) (pairs ++ [(t, d)]))
    (u : Usage) {l : Ledger} {pairs : List (String × String)} (h : P l pairs) :
    P (l.enterUsage judge default u)
      (pairs ++ u.dependencies.toList.map fun d => (u.typeName, d)) := by
  -- the pairs so far grow with the ledger
  have hall : ∀ (ds : List String) (l : Ledger) pairs, P l pairs →
      P (ds.foldl (fun l d => l.enter u.typeName d (judge.judgeOr u.typeName d default)) l)
        (pairs ++ ds.map fun d => (u.typeName, d)) := by
    intro ds
    induction ds with
    | nil =>
      intro l pairs h
      rw [List.map_nil, List.append_nil]
      exact h
    | cons d rest ih =>
      intro l pairs h
      have hrest := ih _ _ (enter l pairs u.typeName d h)
      rw [List.append_assoc] at hrest
      exact hrest
  exact hall u.dependencies.toList _ _ (openType l pairs u.typeName h)

/-- Filling a ledger is opening types and entering pairs. What holds of the empty ledger and is kept
by each of these, for the pairs entered so far, holds of the ledger of any usages. -/
theorem ofUsages_induction (empty : P .empty [])
    (openType : ∀ l pairs t, P l pairs → P (l.openType t) pairs)
    (enter : ∀ l pairs t d, P l pairs →
      P (l.enter t d (judge.judgeOr t d default)) (pairs ++ [(t, d)]))
    (usages : List Usage) : P (ofUsages judge default usages) (Usage.pairs usages) := by
  have hrun : ∀ l pairs, P l pairs →
      P (usages.foldl (enterUsage judge default) l) (pairs ++ Usage.pairs usages) := by
    induction usages with
    | nil =>
      intro l pairs h
      rw [Usage.pairs, List.flatMap_nil, List.append_nil]
      exact h
    | cons u rest ih =>
      intro l pairs h
      have hrest := ih _ _ (enterUsage_induction openType enter u h)
      rw [List.append_assoc] at hrest
      exact hrest
  exact hrun .empty [] empty

end Induction

/-- **A ledger of usages holds their pairs.** -/
theorem books_ofUsages (judge : Judge) (default : Severity) (usages : List Usage) :
    (ofUsages judge default usages).Books judge default (Usage.pairs usages) :=
  ofUsages_induction Books.empty (fun _ _ t h => h.openType t) (fun _ _ t d h => h.enter t d) usages

end Ledger

end ApiGate
