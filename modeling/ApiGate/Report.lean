import ApiGate.Findings

/-!
# Reports

A report has a section for each severity that was found, from least to most severe. A section says
how many dependencies there are and, unless they are ignored, lists the violations; its action says
what the build is to do about it.
-/

namespace ApiGate

/-- What a build does with a section of the report. -/
inductive Action where
  | logInfo
  | logWarning
  | failBuild
  deriving DecidableEq, Repr

namespace Action

/-- The action that a severity calls for. -/
def ofSeverity : Severity → Action
  | .ignore | .inform => .logInfo
  | .warn => .logWarning
  | .fail => .failBuild

def name : Action → String
  | .logInfo => "log-info"
  | .logWarning => "log-warning"
  | .failBuild => "fail-build"

end Action

/-- The part of a report that is about one severity. -/
structure Section where
  severity : Severity
  /-- The number of dependencies that have it. -/
  count : Nat
  message : String
  deriving DecidableEq, Repr

namespace Section

def action (s : Section) : Action := Action.ofSeverity s.severity

def heading (severity : Severity) (count : Nat) : String :=
  "JDeps reported " ++ toString count
    ++ " dependencies on JDK-internal APIs that are configured to "
    ++ match severity with
      | .ignore => "be ignored."
      | .inform => "be logged:"
      | .warn => "be warned about:"
      | .fail => "fail the build:"

/-- The section for the violations of a severity, if they have any dependencies. -/
def ofViolations? (severity : Severity) (violations : List Violation) : Option Section :=
  let count := (Violation.pairs violations).length
  if count = 0 then none
  else
    let listing := match severity with
      | .ignore => ""
      | _ => "\n" ++ "\n".intercalate (violations.map Violation.listing)
    some ⟨severity, count, heading severity count ++ listing⟩

end Section

/-- The sections on the findings of an analysis. -/
structure Report where
  /-- The sections, from least to most severe. -/
  sections : List Section
  deriving DecidableEq, Repr

namespace Report

def ofFindings (f : Findings) : Report :=
  ⟨Severity.all.filterMap fun s => Section.ofViolations? s (f.violations s)⟩

def isClean (r : Report) : Bool := r.sections.isEmpty

def failure? (r : Report) : Option String :=
  (r.sections.find? (·.action = .failBuild)).map (·.message)

def cleanText : String := "JDeps reported no dependencies on JDK-internal APIs."

/-- The text of a report: its sections with a blank line between any two. -/
def render (r : Report) : String :=
  if r.isClean then cleanText else "\n\n".intercalate (r.sections.map (·.message))

end Report

end ApiGate
