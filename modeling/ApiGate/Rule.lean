import ApiGate.Name
import ApiGate.Severity

/-!
# Rules

A rule says how severe it is that a dependent (a type, a package or everything) uses one internal
API. Its canonical text `(dependent -> dependency: SEVERITY)` is what messages quote, also for a
rule that was never accepted: `Rule.describe` therefore takes texts and not names.
-/

namespace ApiGate

/-- How severe it is that `dependent` uses `dependency`. -/
structure Rule where
  /-- The type or package the rule is for, or the wildcard. -/
  dependent : Name
  /-- The internal API the rule is about. -/
  dependency : Name
  severity : Severity
  deriving DecidableEq

/-- What is wrong with the form of an arrow rule. -/
inductive Malformation where
  /-- An opening parenthesis at the start has no closing one at the end. -/
  | unbalanced
  | noArrow
  | noSeverity
  /-- There is not exactly one dependency where one is called for. -/
  | notSingle
  deriving DecidableEq, Repr

def Malformation.reason : Malformation → String
  | .unbalanced => "unbalanced parentheses"
  | .noArrow => "missing '->'"
  | .noSeverity => "missing ': SEVERITY'"
  | .notSingle => "expected exactly one dependency"

inductive RuleError where
  /-- One of its two names is none. -/
  | badName (e : NameError)
  /-- The text does not have the form of an arrow rule. -/
  | malformed (rule : String) (how : Malformation)
  /-- The text at the place of the severity names none. -/
  | unknownSeverity (value : String)
  deriving DecidableEq

namespace RuleError

def message : RuleError → String
  | .badName e => e.message
  | .malformed rule how => "the arrow rule '" ++ rule ++ "' is malformed: " ++ how.reason
  | .unknownSeverity value => Severity.unknownMessage value

/-- The code under which the error is documented. -/
def code : RuleError → String
  | .badName e => e.code
  | .malformed _ _ => "jdeps_guard::rule::malformed"
  | .unknownSeverity _ => "jdeps_guard::rule::unknown_severity"

def help : RuleError → Option String
  | .badName e => e.help
  | .malformed _ _ => some "write rules as `com.foo.Bar -> sun.misc.Unsafe: WARN`"
  | .unknownSeverity _ => none

end RuleError

namespace Rule

def describe (dependent dependency : String) (severity : Severity) : String :=
  "(" ++ dependent ++ " -> " ++ dependency ++ ": " ++ severity.name ++ ")"

/-- The canonical text of a rule. -/
def text (r : Rule) : String :=
  describe r.dependent.text r.dependency.text r.severity

/-- Whether two rules are about the same dependent and dependency. -/
def samePair (r s : Rule) : Bool :=
  r.dependent.text == s.dependent.text && r.dependency.text == s.dependency.text

/-- Makes a rule of two texts; of two bad names the dependent is reported. -/
def ofTexts (dependent dependency : String) (severity : Severity) : Except RuleError Rule := do
  let rule := describe dependent dependency severity
  let dependent ← (Name.ofText rule .dependent dependent).mapError .badName
  let dependency ← (Name.ofText rule .dependency dependency).mapError .badName
  return ⟨dependent, dependency, severity⟩

/-- Makes a rule of two texts that may be absent: an absent name is an empty one. -/
def ofOptional (dependent dependency : Option String) (severity : Severity) :
    Except RuleError Rule :=
  ofTexts (dependent.getD "") (dependency.getD "") severity

end Rule

end ApiGate
