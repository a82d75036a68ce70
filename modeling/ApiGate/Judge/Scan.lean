import ApiGate.Judge

/-!
# The judge that scans

Keeps the rules as a list and looks at every one of them for every query. It is slow and plain:
its answer is the severity of an applying rule of the greatest specificity, by definition.
-/

namespace ApiGate

/-- A list of rules, in the order they were given. -/
structure Scan where
  rules : List Rule

namespace Scan

/-- The first rule of `rest` whose pair occurs before it, together with the rule it repeats;
`earlier` are the rules before `rest`. -/
def clash? (earlier : List Rule) : List Rule → Option Conflict
  | [] => none
  | r :: rest =>
    match earlier.find? (Rule.samePair · r) with
    | some existing => some ⟨existing, r⟩
    | none => clash? (earlier ++ [r]) rest

/-- Makes a judge of rules without a conflict. -/
def ofRules (rules : List Rule) : Except Conflict Scan :=
  match clash? [] rules with
  | some conflict => .error conflict
  | none => .ok ⟨rules⟩

/-- The greater of a measured severity and the best before it; of two equals it is the later. -/
def prefer (best : Option (Nat × Severity)) (c : Nat × Severity) : Option (Nat × Severity) :=
  if best.all (·.1 ≤ c.1) then some c else best

/-- The last of the greatest among measured severities. -/
def greatest (candidates : List (Nat × Severity)) : Option (Nat × Severity) :=
  candidates.foldl prefer none

/-- The specificities and severities of the rules that apply. -/
def candidates (rules : List Rule) (dependent dependency : String) : List (Nat × Severity) :=
  (rules.filter (·.dependency.text == dependency)).filterMap fun r =>
    (specificity r.dependent.text dependent).map fun n => (n, r.severity)

/-- The severity of the most specific rule that applies. -/
def judge (scan : Scan) : Judge := fun dependent dependency =>
  (greatest (candidates scan.rules dependent dependency)).map (·.2)

end Scan

end ApiGate
