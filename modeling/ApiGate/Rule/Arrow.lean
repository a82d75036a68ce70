import ApiGate.Rule

/-!
# Arrow rules

The compact notation `dependent -> dependency, dependency: SEVERITY`, with or without parentheses
around it, stands for one rule per dependency. Blanks may stand around every piece.

The text is cut at the first arrow and, after it, at the last colon. The severity is looked at
before the names, and the names from left to right, each dependency together with the dependent.
-/

namespace ApiGate.Rule

/-- The text without the parentheses around it; one that only opens is an error. -/
def stripParens (cs : List Char) : Except Malformation (List Char) :=
  match cs with
  | '(' :: inner => if inner.getLast? = some ')' then .ok inner.dropLast else .error .unbalanced
  | _ => .ok cs

/-- The three pieces of an arrow rule: dependent, list of dependencies, severity. -/
def cutPieces (cs : List Char) : Except Malformation (List Char × List Char × List Char) := do
  let body ← stripParens cs
  match Text.cutArrow body with
  | none => .error .noArrow
  | some (dependent, rest) =>
    -- the last colon, since the severity stands last
    match Text.cutLast ':' rest with
    | none => .error .noSeverity
    | some (dependencies, severity) => .ok (dependent, dependencies, severity)

/-- The rules an arrow rule stands for, in the order of its dependencies. -/
def parseArrow (text : String) : Except RuleError (List Rule) := do
  -- messages quote the rule without the blanks around it
  let trimmed := Text.trim text.toList
  let (dependent, dependencies, severity) ←
    (cutPieces trimmed).mapError (.malformed (String.ofList trimmed))
  match Severity.ofChars? severity with
  | none => .error (.unknownSeverity (String.ofList severity))
  | some s =>
    (dependencies.splitOn ',').mapM fun dependency =>
      ofTexts (String.ofList (Text.trim dependent)) (String.ofList (Text.trim dependency)) s

/-- Reads an arrow rule with exactly one dependency. -/
def parse (text : String) : Except RuleError Rule := do
  match ← parseArrow text with
  | [r] => .ok r
  | _ => .error (.malformed (String.ofList (Text.trim text.toList)) .notSingle)

end ApiGate.Rule
