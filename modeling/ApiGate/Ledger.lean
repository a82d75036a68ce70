import ApiGate.Judge
import ApiGate.Table
import ApiGate.Usage

/-!
# The ledger

Usages are judged one after another, and a *ledger* holds what has come of it so far: a table of the
types, for each of them a table of severities, and for each of these the dependencies of the type
that are judged so. A type that comes again adds to what it has; a type without dependencies has an
empty table.

The ledger also counts the pairs of type and dependency as they come in. A pair that is there
already does not count.
-/

namespace ApiGate

namespace Severity

instance : Ordered Severity where
  irrefl s := Nat.lt_irrefl s.rank
  trans := Nat.lt_trans
  eq_of_not_lt {s t} h h' := by
    have hrank : s.rank = t.rank := Nat.le_antisymm (Nat.le_of_not_lt h') (Nat.le_of_not_lt h)
    cases s <;> cases t <;> first | rfl | cases hrank

end Severity

abbrev Grades := Table Severity TextSet

namespace Grades

def graded (g : Grades) (s : Severity) : TextSet := (g.get? s).getD .empty

def add (g : Grades) (s : Severity) (d : String) : Grades := g.set s ((g.graded s).insert d)

end Grades

/-- What has come of the usages judged so far. -/
structure Ledger where
  /-- Each type with its dependencies. -/
  types : Table String Grades
  /-- The number of pairs of a type and a dependency. -/
  count : Nat

namespace Ledger

def empty : Ledger := ⟨.empty, 0⟩

def grades (l : Ledger) (typeName : String) : Grades := (l.types.get? typeName).getD .empty

/-- Gives a type a table of its own, unless it has one. -/
def openType (l : Ledger) (typeName : String) : Ledger :=
  ⟨l.types.set typeName (l.grades typeName), l.count⟩

def enter (l : Ledger) (typeName d : String) (s : Severity) : Ledger :=
  let grades := l.grades typeName
  ⟨l.types.set typeName (grades.add s d),
    -- a pair that is there already does not count again
    if d ∈ grades.graded s then l.count else l.count + 1⟩

/-- Judges a usage; a dependency that no rule covers has the default severity. -/
def enterUsage (judge : Judge) (default : Severity) (l : Ledger) (u : Usage) : Ledger :=
  u.dependencies.toList.foldl
    (fun l d => l.enter u.typeName d (judge.judgeOr u.typeName d default)) (l.openType u.typeName)

def ofUsages (judge : Judge) (default : Severity) (usages : List Usage) : Ledger :=
  usages.foldl (enterUsage judge default) empty

end Ledger

end ApiGate
