import ApiGate.TextSet

/-!
# Usages

A usage is one analysed type with the internal APIs it depends on. A list of usages may name a type
any number of times, also with dependencies it has named before or with none; what counts in the
end are the `Usage.pairs` in it.
-/

namespace ApiGate

/-- One analysed type and the internal APIs it depends on. -/
@[ext] structure Usage where
  typeName : String
  dependencies : TextSet
  deriving DecidableEq

namespace Usage

def ofList (typeName : String) (dependencies : List String) : Usage :=
  ⟨typeName, TextSet.ofList dependencies⟩

@[simp] theorem typeName_ofList (t : String) (l : List String) : (ofList t l).typeName = t := rfl

@[simp] theorem mem_dependencies_ofList {t d : String} {l : List String} :
    d ∈ (ofList t l).dependencies ↔ d ∈ l :=
  TextSet.mem_ofList

/-- The pairs of a type and a dependency in a list of usages. -/
def pairs (usages : List Usage) : List (String × String) :=
  usages.flatMap fun u => u.dependencies.toList.map fun d => (u.typeName, d)

theorem mem_pairs {usages : List Usage} {t d : String} :
    (t, d) ∈ pairs usages ↔ ∃ u ∈ usages, u.typeName = t ∧ d ∈ u.dependencies := by
  unfold pairs
  rw [List.mem_flatMap]
  refine exists_congr fun u => and_congr_right fun _ => ?_
  by_cases h : u.typeName = t
  · simp [h]
  · simp [h]

end Usage

end ApiGate
