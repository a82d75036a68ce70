import ApiGate.Text
import ApiGate.Toml.Reader

/-!
# Configurations

A configuration is what the text of one says, before any of it is looked at as a rule: names may be
absent, and severities and arrow rules are still texts.

Arrow rules come as a list with one arrow rule per entry or as one block with one per line. Every
entry of a list counts, while the blank lines of a block do not.
-/

namespace ApiGate

/-- A rule written with a field for each of its pieces. -/
structure RuleEntry where
  /-- The type, the package or the wildcard. -/
  dependent : Option String
  dependency : Option String
  severity : String
  deriving DecidableEq, Repr

inductive ArrowRules where
  /-- One arrow rule per entry. -/
  | list (entries : List String)
  /-- One arrow rule per line that is not blank. -/
  | block (text : String)
  deriving DecidableEq, Repr

/-- The texts that are each to be read as an arrow rule. -/
def ArrowRules.lines : ArrowRules → List String
  | .list entries => entries
  | .block text =>
    ((Text.lines text.toList).map String.ofList).filter fun line => !Text.isBlankText line

/-- What a configuration says. -/
structure Config where
  /-- The severity of what no rule covers. -/
  defaultSeverity : Option String
  dependencyRules : List RuleEntry
  arrowRules : ArrowRules
  deriving DecidableEq, Repr

namespace Config

open Toml (Value Fields)

def empty : Config := ⟨none, [], .list []⟩

/-- A text that may be absent but must not be anything else. -/
def optionalText? : Option Value → Option (Option String)
  | none => some none
  | some (.text s) => some (some s)
  | some _ => none

def text? : Value → Option String
  | .text s => some s
  | _ => none

/-- A rule written as a table; fields without a meaning do no harm. -/
def ruleOfFields? (fields : Fields) : Option RuleEntry := do
  let dependent ← optionalText? (fields.lookup "dependent")
  let dependency ← optionalText? (fields.lookup "dependency")
  let severity ← (fields.lookup "severity").bind text?
  return ⟨dependent, dependency, severity⟩

/-- A rule written as a table, or as an array of its fields in order; what stands in the array
after the fields does no harm. -/
def ruleOfValue? : Value → Option RuleEntry
  | .table _ fields => ruleOfFields? fields
  | .array (.text dependent :: .text dependency :: .text severity :: _) =>
    some ⟨some dependent, some dependency, severity⟩
  | _ => none

def rulesOfValue? : Option Value → Option (List RuleEntry)
  | none => some []
  | some (.array items) => items.mapM ruleOfValue?
  | some (.tables elements) => elements.mapM ruleOfFields?
  | some _ => none

def arrowRulesOfValue? : Option Value → Option ArrowRules
  | none => some (.list [])
  | some (.text s) => some (.block s)
  | some (.array items) => (items.mapM text?).map .list
  | some _ => none

/-- The configuration in a document; what has no meaning for it does no harm. -/
def ofFields? (fields : Fields) : Option Config := do
  let defaultSeverity ← optionalText? (fields.lookup "default-severity")
  let dependencyRules ← rulesOfValue? (fields.lookup "dependency-rules")
  let arrowRules ← arrowRulesOfValue? (fields.lookup "arrow-rules")
  return ⟨defaultSeverity, dependencyRules, arrowRules⟩

/-- The configuration in a text, unless the text is no document or gives a field a value of the
wrong kind. -/
def parse? (text : String) : Option Config :=
  (Toml.parse? text).bind ofFields?

/-- The code under which texts that are no configuration are documented. -/
def parseErrorCode : String := "jdeps_guard::config::parse"

end Config

end ApiGate
