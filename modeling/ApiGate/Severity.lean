import ApiGate.Text

/-!
# Severities

How bad a dependency on an internal API is, from `ignore` to `fail`. The order is that of the
ranks, so `s ≤ t` says that `t` is at least as severe as `s`.

A severity is written by its upper-case name and read in any ASCII case, with blanks around it.
-/

namespace ApiGate

/-- How severe a dependency is, from least to most. -/
inductive Severity where
  /-- Accepted, and only counted. -/
  | ignore
  /-- Listed in the build output. -/
  | inform
  /-- Reported as a warning. -/
  | warn
  /-- Fails the build. -/
  | fail
  deriving DecidableEq, Repr

namespace Severity

/-- All severities, from least to most severe. -/
def all : List Severity := [.ignore, .inform, .warn, .fail]

def rank : Severity → Nat
  | .ignore => 0
  | .inform => 1
  | .warn => 2
  | .fail => 3

instance : LE Severity := ⟨fun s t => s.rank ≤ t.rank⟩
instance : LT Severity := ⟨fun s t => s.rank < t.rank⟩
instance (s t : Severity) : Decidable (s ≤ t) := inferInstanceAs (Decidable (s.rank ≤ t.rank))
instance (s t : Severity) : Decidable (s < t) := inferInstanceAs (Decidable (s.rank < t.rank))

/-- The name of a severity in rules, configurations and output. -/
def name : Severity → String
  | .ignore => "IGNORE"
  | .inform => "INFORM"
  | .warn => "WARN"
  | .fail => "FAIL"

/-- Whether two texts are equal up to the case of ASCII letters. -/
def sameLetters (a b : List Char) : Bool :=
  a.map Char.toLower == b.map Char.toLower

/-- Reads a severity; blanks around the name and the case of its letters do not matter. -/
def ofChars? (cs : List Char) : Option Severity :=
  all.find? fun s => sameLetters s.name.toList (Text.trim cs)

def ofText? (text : String) : Option Severity :=
  ofChars? text.toList

def unknownMessage (value : String) : String :=
  "unknown severity `" ++ value ++ "`, expected one of: IGNORE, INFORM, WARN, FAIL"

@[simp] theorem mem_all (s : Severity) : s ∈ all := by cases s <;> decide

end Severity

end ApiGate
