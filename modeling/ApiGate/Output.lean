import ApiGate.Output.Json
import ApiGate.Report
import ApiGate.RuleSet

/-!
# Output

What the program writes to standard output.

* `Findings.text` is the report for people, with coloured labels and a summary at its end.
* `Findings.json` is everything there is to know, for other programs.
* `Findings.compact` has one line for each internal dependency, the most severe first.
* `RuleSet.table` lists the rules, with a row for each.
-/

namespace ApiGate

/-- The forms in which findings are written. -/
inductive Format where
  | text
  | json
  /-- One line for each internal dependency. -/
  | compact
  deriving DecidableEq, Repr

def Format.ofName? : String → Option Format
  | "text" => some .text
  | "json" => some .json
  | "compact" => some .compact
  | _ => none

inductive Colour where
  | red
  | yellow
  | blue
  | green
  deriving DecidableEq, Repr

def Colour.paint (colour : Colour) (text : String) : String :=
  let code := match colour with
    | .red => "31"
    | .yellow => "33"
    | .blue => "34"
    | .green => "32"
  "\x1b[" ++ code ++ "m" ++ text ++ "\x1b[0m"

def Action.label : Action → String
  | .logInfo => Colour.blue.paint "info"
  | .logWarning => Colour.yellow.paint "warning"
  | .failBuild => Colour.red.paint "error"

namespace Findings

/-- How many dependencies have which severity. -/
def summary (f : Findings) : String :=
  "Found " ++ toString (f.count .fail) ++ " failing, " ++ toString (f.count .warn) ++ " warned, "
    ++ toString (f.count .inform) ++ " logged and " ++ toString (f.count .ignore)
    ++ " ignored internal dependencies"

/-- The colour of the worst that was found. -/
def colour (f : Findings) : Colour :=
  if f.hasFailures then .red else if f.hasAtLeast .warn then .yellow else .green

def text (f : Findings) : String :=
  let report := Report.ofFindings f
  if report.isClean then Colour.green.paint report.render ++ "\n"
  else
    String.join (report.sections.map fun s => s.action.label ++ ": " ++ s.message ++ "\n\n")
      ++ f.colour.paint f.summary ++ "\n"

def compactLines (v : Violation) : List String :=
  v.dependencies.toList.map fun d => v.severity.name ++ " " ++ v.typeName ++ " -> " ++ d ++ "\n"

def compact (f : Findings) : String :=
  String.join (Severity.all.reverse.flatMap fun s => (f.violations s).flatMap compactLines)

def violationJson (v : Violation) : Json :=
  .object [("type", .text v.typeName),
    ("internal_dependencies", .list (v.dependencies.toList.map .text)),
    ("severity", .text v.severity.name)]

def sectionJson (s : Section) : Json :=
  .object [("severity", .text s.severity.name), ("action", .text s.action.name),
    ("dependency_count", .number s.count), ("message", .text s.message)]

def toJson (f : Findings) (default : Severity) : Json :=
  .object [("default_severity", .text default.name),
    ("result", .object [("violations_to_ignore", .list (f.ignored.map violationJson)),
      ("violations_to_inform", .list (f.informed.map violationJson)),
      ("violations_to_warn", .list (f.warned.map violationJson)),
      ("violations_to_fail", .list (f.failed.map violationJson))]),
    ("sections", .list ((Report.ofFindings f).sections.map sectionJson))]

def json (f : Findings) (default : Severity) : String :=
  (f.toJson default).pretty 0 ++ "\n"

def write (f : Findings) (default : Severity) : Format → String
  | .text => f.text
  | .json => f.json default
  | .compact => f.compact

end Findings

/-- A text with spaces after it, so that it is at least so many characters long. -/
def padRight (width : Nat) (text : String) : String :=
  text ++ String.ofList (List.replicate (width - text.length) ' ')

def tableRow (severity dependent dependency : String) : String :=
  padRight 8 severity ++ " " ++ padRight 40 dependent ++ " " ++ dependency ++ "\n"

namespace RuleSet

def rows (rules : List Rule) : List String :=
  rules.map fun r => tableRow r.severity.name r.dependent.text r.dependency.text

/-- The table of the rules that come from a path, or of the rules there are without one. -/
def table (rules : RuleSet) (path : Option String) : String :=
  (match path with
    | some path => "Rules from " ++ path ++ ":\n\n"
    | none => "No configuration found, using defaults.\n\n")
    ++ (if rules.rules = [] then "  (no rules)\n"
      else
        tableRow "Severity" "Dependent" "Dependency"
          ++ String.ofList (List.replicate 80 '-') ++ "\n" ++ String.join (rows rules.rules))
    ++ "\nDependencies no rule covers are judged " ++ rules.defaultSeverity.name ++ ".\n"
    ++ "\nThe most specific rule wins; `*` applies when no package or type rule matches.\n"

end RuleSet

namespace Config

def templateLines : List String :=
  ["# jdeps-guard configuration",
   "#",
   "# Rules decide how severe a dependency on a JDK-internal API is:",
   "#   IGNORE  not reported in detail",
   "#   INFORM  logged",
   "#   WARN    logged as warning",
   "#   FAIL    fails the build",
   "#",
   "# The dependent is a package, a type or `*` for everything. For each",
   "# dependency the most specific matching rule wins.",
   "",
   "# Severity for internal dependencies no rule covers.",
   "default-severity = \"FAIL\"",
   "",
   "# Compact form: `dependent -> dependency[, dependency...]: SEVERITY`",
   "arrow-rules = [",
   "    # \"* -> sun.misc.Signal: IGNORE\",",
   "    # \"com.example.legacy -> sun.misc.BASE64Encoder, sun.misc.BASE64Decoder: WARN\",",
   "]",
   "",
   "# Table form, one rule per entry.",
   "# [[dependency-rules]]",
   "# dependent = \"com.example.core\"",
   "# dependency = \"sun.misc.Unsafe\"",
   "# severity = \"INFORM\""]

/-- The configuration that a project starts with. -/
def template : String := String.join (templateLines.map (· ++ "\n"))

end Config

end ApiGate
