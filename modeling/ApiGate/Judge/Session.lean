import ApiGate.Rule.Arrow
import ApiGate.Judge.Scan
import ApiGate.Event
import ApiGate.Report

/-!
# Sessions

A session collects rules, makes judges of what it has collected, and asks them. Making judges uses
up the collected rules and gives up the former judges, also when it fails, so a judge never knows
of rules that were collected before the last making of judges but one, or after the last.

Each kind of judge has a builder of its own, which holds the rules it was given. Every rule goes to
both builders, they are used up together, and their judges are asked together. A question may bring
a severity for the case that no rule applies, as a text that is only looked at if there are judges.
-/

namespace ApiGate

/-- Where rules come from. -/
inductive RuleSource where
  | arrow (text : String)
  /-- The fields of a single rule. -/
  | fields (dependent dependency : String) (severity : Severity)
  deriving DecidableEq

/-- The rules that a source stands for. -/
def RuleSource.rules : RuleSource → Except RuleError (List Rule)
  | .arrow text => Rule.parseArrow text
  | .fields dependent dependency severity =>
    (Rule.ofTexts dependent dependency severity).map fun r => [r]

structure Judges where
  index : Index
  scan : Scan

/-- The two builders and the judges made last. -/
structure Session where
  /-- The rules that the builder of the index holds. -/
  forIndex : List Rule
  /-- The rules that the builder of the scan holds. -/
  forScan : List Rule
  judges : Option Judges

namespace Session

def start : Session := ⟨[], [], none⟩

/-- Gives a rule to both builders. -/
def register (session : Session) (r : Rule) : Session :=
  { session with forIndex := session.forIndex ++ [r], forScan := session.forScan ++ [r] }

/-- The judges that the builders make, the index first. -/
def make (session : Session) : Except Conflict Judges := do
  let index ← Index.ofRules session.forIndex
  let scan ← Scan.ofRules session.forScan
  return ⟨index, scan⟩

inductive Step where
  /-- Collect rules. -/
  | add (source : RuleSource)
  | build
  /-- Ask the judges, with a severity for the case that no rule applies. -/
  | ask (dependent dependency : String) (default : Option String)
  | report (usages : List Usage)

inductive Answer where
  | added (rules : List Rule)
  | refused (e : RuleError)
  /-- Judges were made: the rules that the index counts, and those that the scan holds. -/
  | built (ruleCount : Nat) (rules : List Rule)
  | clashed (c : Conflict)
  /-- The severities that the two judges give. -/
  | judged (byIndex byScan : Option Severity)
  /-- The severity for the case that no rule applies is none. -/
  | badDefault (value : String)
  /-- The findings of the judge that walks a tree. -/
  | found (findings : Findings)
  | noJudges

/-- The answer of judges, or the default where they give none. -/
def ask (judges : Judges) (dependent dependency : String) (default : Option Severity) : Answer :=
  .judged ((judges.index.judge dependent dependency).or default)
    ((judges.scan.judge dependent dependency).or default)

def step (session : Session) : Step → Session × Answer
  | .add source =>
    -- all the rules of a source or none
    match source.rules with
    | .error e => (session, .refused e)
    | .ok rules => (rules.foldl register session, .added rules)
  | .build =>
    -- new builders take the place of these and the former judges are gone, whatever comes of it
    match session.make with
    | .error c => (start, .clashed c)
    | .ok judges =>
      ({ start with judges := some judges }, .built judges.index.ruleCount judges.scan.rules)
  | .ask dependent dependency default =>
    match session.judges, default with
    | none, _ => (session, .noJudges)
    | some judges, none => (session, ask judges dependent dependency none)
    | some judges, some text =>
      match Severity.ofText? text with
      | some s => (session, ask judges dependent dependency (some s))
      | none => (session, .badDefault text)
  | .report usages =>
    match session.judges with
    | none => (session, .noJudges)
    | some judges =>
      (session, .found (Findings.ofUsages judges.index.judge Findings.standardSeverity usages))

def events (session : Session) : Step → List Event
  | .build => Index.events session.forIndex
  | .report usages =>
    match session.judges with
    | none => []
    | some judges => Findings.events judges.index.judge Findings.standardSeverity usages
  | _ => []

def after (session : Session) (steps : List Step) : Session :=
  steps.foldl (fun s step => (s.step step).1) session

def answers (session : Session) : List Step → List Answer
  | [] => []
  | step :: rest => (session.step step).2 :: (session.step step).1.answers rest

end Session

end ApiGate
