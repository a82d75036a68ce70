import ApiGate.Findings
import ApiGate.Judge.Index

/-!
# Events

What happens on the way to an answer is told as a list of events, in order. An event is a value:
its level decides who gets to see it, and its message is the only place where it is put into words.

Names come from files that anyone may have written, and a log is read on a terminal. So a line of
the log spells out the control characters that a terminal acts on, though not the line ends.
-/

namespace ApiGate

/-- Who an event is for. -/
inductive Level where
  /-- Whoever wants to follow every step. -/
  | debug
  /-- Everyone. -/
  | info
  /-- Everyone, as something that may be wrong. -/
  | warn
  deriving DecidableEq, Repr

def Level.name : Level → String
  | .debug => "DEBUG"
  | .info => "INFO"
  | .warn => "WARN"

/-- Something that happened. -/
inductive Event where
  /-- A rule is about to be added to the index. -/
  | indexing (rule : Rule)
  | indexed (rules dependencies : Nat)
  | rulesLoaded (rules : Nat) (default : Severity)
  | uncovered (typeName dependency : String) (default : Severity)
  | judged (total fail warn inform ignore : Nat)
  /-- A type with a blank name is left out. -/
  | blankType (dependencies : Nat)
  /-- A blank dependency is left out. -/
  | blankDependency (typeName : String)
  /-- A type without dependencies is left out. -/
  | noDependencies (typeName : String)
  | usagesLoaded (types : Nat)
  | projectConfigFound (path : String)
  | globalConfigFound (path : String)
  | noConfig
  | usingGlobalConfig (path : String)
  | judging (types rules : Nat) (default : Severity)
  deriving DecidableEq

namespace Event

/-- Who an event is for. -/
def level : Event → Level
  | .judged .. | .usingGlobalConfig _ | .judging .. => .info
  | .blankType _ | .blankDependency _ | .noDependencies _ => .warn
  | _ => .debug

def message : Event → String
  | .indexing rule => "Indexing rule " ++ rule.text
  | .indexed rules dependencies =>
    "Indexed " ++ toString rules ++ " rules for " ++ toString dependencies ++ " dependencies"
  | .rulesLoaded rules default =>
    "Loaded " ++ toString rules ++ " rules, default severity " ++ default.name
  | .uncovered typeName dependency default =>
    "No rule for " ++ typeName ++ " -> " ++ dependency ++ ", using default severity "
      ++ default.name
  | .judged total fail warn inform ignore =>
    "Judged " ++ toString total ++ " internal dependencies: " ++ toString fail ++ " fail, "
      ++ toString warn ++ " warn, " ++ toString inform ++ " inform, " ++ toString ignore
      ++ " ignore"
  | .blankType dependencies =>
    "Skipping " ++ toString dependencies ++ " dependencies of a type with a blank name"
  | .blankDependency typeName => "Skipping blank dependency of " ++ typeName
  | .noDependencies typeName => "Skipping " ++ typeName ++ ": no internal dependencies listed"
  | .usagesLoaded types => "Loaded internal dependencies of " ++ toString types ++ " types"
  | .projectConfigFound path => "Found project config: " ++ path
  | .globalConfigFound path => "Found global config: " ++ path
  | .noConfig => "No config found, using defaults"
  | .usingGlobalConfig path => "Using global config: " ++ path
  | .judging types rules default =>
    "Judging " ++ toString types ++ " types with " ++ toString rules
      ++ " rules (default severity " ++ default.name ++ ")"

def line (e : Event) : String := e.level.name ++ " " ++ e.message

/-- Controls of one byte that a terminal acts on: bell, backspace, form feed, escape, delete. -/
def isControl (c : Char) : Bool :=
  c = '\x07' || c = '\x08' || c = '\x0C' || c = '\x1B' || c = '\x7F'

/-- The further controls, from U+0080 to U+009F. -/
def isHighControl (c : Char) : Bool := 0x80 ≤ c.toNat && c.toNat ≤ 0x9F

def hexDigits (c : Char) : List Char :=
  [(c.toNat / 16).digitChar, (c.toNat % 16).digitChar]

/-- A character as it stands in the log. -/
def logged (c : Char) : List Char :=
  if isControl c then ['\\', 'x'] ++ hexDigits c
  else if isHighControl c then ['\\', 'u', '{'] ++ hexDigits c ++ ['}']
  else [c]

def logLine (e : Event) : String :=
  e.level.name ++ " " ++ String.ofList (e.message.toList.flatMap logged)

end Event

/-- What is told of the making of an index: each rule as it is added, and the end if it comes to
one. -/
def Index.events (rules : List Rule) : List Event :=
  (Index.empty.attempted rules).map .indexing
    ++ match Index.ofRules rules with
      | .ok index => [.indexed index.ruleCount index.trees.length]
      | .error _ => []

/-- What is told of the judging of usages: every dependency that no rule covers, as often as it is
given, and at the end how many dependencies of which severity there are. -/
def Findings.events (judge : Judge) (default : Severity) (usages : List Usage) : List Event :=
  let findings := Findings.ofUsages judge default usages
  (usages.flatMap fun u =>
      (u.dependencies.toList.filter fun d => (judge u.typeName d).isNone).map fun d =>
        .uncovered u.typeName d default)
    ++ [.judged (Ledger.ofUsages judge default usages).count (findings.count .fail)
      (findings.count .warn) (findings.count .inform) (findings.count .ignore)]

end ApiGate
