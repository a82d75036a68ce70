import ApiGate.Ledger

/-!
# Findings

Judging usages gives *findings*: for each severity, the violations that have it, at most one per
type and in increasing order of the types. A violation carries all dependencies of its type that
are judged at its severity, and at least one.

The violations are read off the ledger, type by type and in each type by severity, and each is put
with the others of its severity.
-/

namespace ApiGate

/-- A type and those of its dependencies that have one severity. -/
@[ext] structure Violation where
  typeName : String
  dependencies : TextSet
  severity : Severity
  deriving DecidableEq

namespace Violation

def line (v : Violation) : String :=
  v.severity.name ++ " " ++ v.typeName ++ " -> " ++ ", ".intercalate v.dependencies.toList

/-- The violation as it is listed in a report: a single dependency stays on the line of the type,
several have a line each. -/
def listing (v : Violation) : String :=
  match v.dependencies.toList with
  | [dependency] => v.typeName ++ " -> " ++ dependency
  | dependencies => v.typeName ++ String.join (dependencies.map ("\n\t-> " ++ ·))

/-- The pairs of a type and a dependency in a list of violations. -/
def pairs (violations : List Violation) : List (String × String) :=
  violations.flatMap fun v => v.dependencies.toList.map fun d => (v.typeName, d)

theorem mem_pairs {violations : List Violation} {t d : String} :
    (t, d) ∈ pairs violations ↔ ∃ v ∈ violations, v.typeName = t ∧ d ∈ v.dependencies := by
  unfold pairs
  rw [List.mem_flatMap]
  refine exists_congr fun v => and_congr_right fun _ => ?_
  by_cases h : v.typeName = t
  · simp [h]
  · simp [h]

end Violation

/-- The violations in a ledger: for each type and each severity it has, the dependencies there. -/
def Ledger.violations (l : Ledger) : List Violation :=
  l.types.entries.flatMap fun (typeName, grades) =>
    grades.entries.map fun (severity, dependencies) => ⟨typeName, dependencies, severity⟩

/-- The violations of one analysis, by severity. -/
structure Findings where
  /-- Violations that are accepted. -/
  ignored : List Violation
  /-- Violations that are listed. -/
  informed : List Violation
  /-- Violations that are warned about. -/
  warned : List Violation
  /-- Violations that fail the build. -/
  failed : List Violation
  deriving DecidableEq

namespace Findings

def violations (f : Findings) : Severity → List Violation
  | .ignore => f.ignored
  | .inform => f.informed
  | .warn => f.warned
  | .fail => f.failed

def count (f : Findings) (s : Severity) : Nat :=
  (Violation.pairs (f.violations s)).length

def total (f : Findings) : Nat :=
  f.count .ignore + f.count .inform + f.count .warn + f.count .fail

def isEmpty (f : Findings) : Bool :=
  Severity.all.all fun s => (f.violations s).isEmpty

/-- Whether there are violations at least as severe as `s`. -/
def hasAtLeast (f : Findings) (s : Severity) : Bool :=
  Severity.all.any fun t => s ≤ t && !(f.violations t).isEmpty

def hasFailures (f : Findings) : Bool :=
  !f.failed.isEmpty

/-- The severity of internal dependencies that no rule covers, unless one is configured. -/
def standardSeverity : Severity := .fail

def empty : Findings := ⟨[], [], [], []⟩

/-- Puts a violation after the others of its severity. -/
def add (f : Findings) (v : Violation) : Findings :=
  match v.severity with
  | .ignore => { f with ignored := f.ignored ++ [v] }
  | .inform => { f with informed := f.informed ++ [v] }
  | .warn => { f with warned := f.warned ++ [v] }
  | .fail => { f with failed := f.failed ++ [v] }

def ofViolations (violations : List Violation) : Findings :=
  violations.foldl add empty

/-- Judges usages; a dependency that no rule covers has the default severity. -/
def ofUsages (judge : Judge) (default : Severity) (usages : List Usage) : Findings :=
  ofViolations (Ledger.ofUsages judge default usages).violations

end Findings

end ApiGate
