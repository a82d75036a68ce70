import ApiGate.Config
import ApiGate.Rule.Arrow
import ApiGate.Event

/-!
# Rule sets

Loading a configuration turns it into rules with a judge over them. The default severity is looked
at first, then the rules written field by field, then the arrow rules, each in order; the first
error ends the loading, and a conflict is only looked for between rules that are all in order.

A rule set keeps its rules next to the judge, in the order of the configuration.
-/

namespace ApiGate

/-- Where in a configuration something is wrong. -/
inductive Place where
  /-- The severity of what no rule covers. -/
  | defaultSeverity
  /-- A rule written field by field, counted from 0. -/
  | dependencyRule (index : Nat)
  /-- An arrow rule, counted from 0 without the blank lines of a block. -/
  | arrowRule (index : Nat)
  deriving DecidableEq, Repr

def Place.text : Place → String
  | .defaultSeverity => "default-severity"
  | .dependencyRule index => "dependency-rules[" ++ toString index ++ "]"
  | .arrowRule index => "arrow-rules[" ++ toString index ++ "]"

/-- Why a configuration does not load. -/
inductive LoadError where
  /-- The rule or severity at a place is none. -/
  | badRule (place : Place) (source : RuleError)
  | conflict (c : Conflict)
  deriving DecidableEq

namespace LoadError

def message : LoadError → String
  | .badRule place source => place.text ++ ": " ++ source.message
  | .conflict c => c.message

/-- The code under which the error is documented. -/
def code : LoadError → String
  | .badRule _ _ => "jdeps_guard::config::invalid_rule"
  | .conflict _ => Conflict.code

def help : LoadError → Option String
  | .badRule _ _ => none
  | .conflict _ => some Conflict.help

end LoadError

structure RuleSet where
  /-- The rules, in the order of the configuration. -/
  rules : List Rule
  index : Index
  /-- The severity of what no rule covers. -/
  defaultSeverity : Severity

namespace Config

def severityAt (place : Place) (text : String) : Except LoadError Severity :=
  match Severity.ofText? text with
  | some s => .ok s
  | none => .error (.badRule place (.unknownSeverity text))

/-- The severity of what no rule covers. -/
def loadDefault (config : Config) : Except LoadError Severity :=
  match config.defaultSeverity with
  | some text => severityAt .defaultSeverity text
  | none => .ok Findings.standardSeverity

/-- The rule in an entry; its severity is looked at before its names. -/
def loadEntry (index : Nat) (entry : RuleEntry) : Except LoadError Rule := do
  let severity ← severityAt (.dependencyRule index) entry.severity
  (Rule.ofOptional entry.dependent entry.dependency severity).mapError
    (.badRule (.dependencyRule index))

/-- The rules in entries, the first of which has the given number. -/
def loadEntries (index : Nat) : List RuleEntry → Except LoadError (List Rule)
  | [] => .ok []
  | entry :: rest => do
    let rule ← loadEntry index entry
    let rules ← loadEntries (index + 1) rest
    return rule :: rules

/-- The rules in the texts of arrow rules, the first of which has the given number. -/
def loadArrows (index : Nat) : List String → Except LoadError (List Rule)
  | [] => .ok []
  | line :: rest => do
    let rules ← (Rule.parseArrow line).mapError (.badRule (.arrowRule index))
    let others ← loadArrows (index + 1) rest
    return rules ++ others

/-- The default severity and all rules, in order. -/
def loadRules (config : Config) : Except LoadError (Severity × List Rule) := do
  let severity ← config.loadDefault
  let rules ← loadEntries 0 config.dependencyRules
  let arrows ← loadArrows 0 config.arrowRules.lines
  return (severity, rules ++ arrows)

def load (config : Config) : Except LoadError RuleSet := do
  -- no conflict is looked for unless all rules are in order
  let (severity, rules) ← config.loadRules
  let index ← (Index.ofRules rules).mapError .conflict
  return ⟨rules, index, severity⟩

def events (config : Config) : List Event :=
  match config.loadRules with
  | .error _ => []
  | .ok (severity, rules) =>
    Index.events rules
      ++ match Index.ofRules rules with
        | .error _ => []
        | .ok _ => [.rulesLoaded rules.length severity]

end Config

namespace RuleSet

def findings (rules : RuleSet) (usages : List Usage) : Findings :=
  Findings.ofUsages rules.index.judge rules.defaultSeverity usages

def events (rules : RuleSet) (usages : List Usage) : List Event :=
  Findings.events rules.index.judge rules.defaultSeverity usages

end RuleSet

end ApiGate
