import ApiGate.Rule

/-!
# Judging

A judge answers how severe it is that a dependent uses a dependency, or that no rule says so. It
takes any texts, also such as are no names.

The most specific rule wins. A rule for a name applies to the name itself and to all below it, and
the longer name is the more specific; a rule for the wildcard applies everywhere and is the least
specific of all. `specificity` measures this in parts. Two rules for the same pair would contradict
each other, so a judge is only made of rules without a `Conflict`.
-/

namespace ApiGate

/-- The severity of a use of `dependency` by `dependent`, if any rule applies. -/
abbrev Judge := (dependent dependency : String) → Option Severity

/-- The severity a judge gives, or a default where it gives none. -/
def Judge.judgeOr (judge : Judge) (dependent dependency : String) (default : Severity) : Severity :=
  (judge dependent dependency).getD default

/-- The number of parts in which the dependent of a rule agrees with a queried one, 0 for the
wildcard; `none` if the rule does not apply. -/
def specificity (ruleDependent dependent : String) : Option Nat :=
  if ruleDependent = Name.wildcard then some 0
  else if (Name.parts ruleDependent).isPrefixOf (Name.parts dependent) then
    some (Name.parts ruleDependent).length
  else none

/-- Two rules for one pair of dependent and dependency. -/
structure Conflict where
  existing : Rule
  /-- The rule that repeats its pair. -/
  conflicting : Rule
  deriving DecidableEq

namespace Conflict

def message (c : Conflict) : String :=
  "The rules " ++ c.existing.text ++ " and " ++ c.conflicting.text ++ " both define how '"
    ++ c.existing.dependent.text ++ "' may depend on '" ++ c.existing.dependency.text ++ "'."

/-- The code under which conflicts are documented. -/
def code : String := "jdeps_guard::judge::conflicting_rules"

def help : String := "remove one of the two rules"

end Conflict

end ApiGate
