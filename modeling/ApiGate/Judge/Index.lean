import ApiGate.Judge

/-!
# The judge that walks a tree

Rules are indexed by dependency and, for each dependency, by the parts of the dependent. A query
looks up the dependency and then walks down the parts of the dependent, as far as the tree goes,
keeping the severity it has met last: the deepest one, which is that of the longest name. If it has
met none, the wildcard of the tree answers.

* A `Forest` holds the names below one place, each part with the severity of the rule for exactly
  that name, if there is one, and with the forest below it.
* A `Tree` is a forest and the severity of the wildcard.
* An `Index` is a tree for each dependency.

Every view of a forest or tree lists its `entries`: what was inserted, and nothing else.
-/

namespace ApiGate

/-- The names below one place in the hierarchy. -/
inductive Forest where
  | nil
  /-- The names that start with `part`, and the rest. -/
  | cons (part : String) (severity : Option Severity) (below rest : Forest)
  deriving DecidableEq, Repr

namespace Forest

def chain (v : Severity) : List String → Forest
  | [] => .nil
  | [p] => .cons p (some v) .nil .nil
  | p :: ps => .cons p none (chain v ps) .nil

/-- Gives the name with these parts a severity; the error is the severity it already has. A place
on the way that is missing is made, without a severity of its own. -/
def insert (v : Severity) : Forest → List String → Except Severity Forest
  | f, [] => .ok f
  | .nil, p :: ps => .ok (chain v (p :: ps))
  | .cons q s below rest, p :: ps =>
    if p = q then
      match ps, s with
      | [], some old => .error old
      | [], none => .ok (.cons q (some v) below rest)
      -- a place on the way keeps its severity, or keeps having none
      | p' :: ps', _ => (insert v below (p' :: ps')).map fun f => .cons q s f rest
    else (insert v rest (p :: ps)).map fun f => .cons q s below f

/-- The severity met last on the way down the parts, or `best` if none is met. -/
def deepest : Forest → List String → Option Severity → Option Severity
  | _, [], best => best
  | .nil, _ :: _, best => best
  | .cons q s below rest, p :: ps, best =>
    if p = q then below.deepest ps (s.or best) else rest.deepest (p :: ps) best

/-- The names that have a severity, by their parts. -/
def entries : Forest → List (List String × Severity)
  | .nil => []
  | .cons p s below rest =>
    s.toList.map (fun v => ([p], v)) ++ below.entries.map (fun e => (p :: e.1, e.2))
      ++ rest.entries

end Forest

structure Tree where
  /-- The severity for every dependent that nothing else covers. -/
  wildcard : Option Severity
  /-- The severities of single names. -/
  names : Forest
  deriving DecidableEq, Repr

namespace Tree

def empty : Tree := ⟨none, .nil⟩

/-- Gives a dependent a severity; the error is the severity it already has. -/
def insert (t : Tree) (dependent : Name) (v : Severity) : Except Severity Tree :=
  if dependent.isWildcard then
    match t.wildcard with
    | some old => .error old
    | none => .ok { t with wildcard := some v }
  else (t.names.insert v (Name.parts dependent.text)).map fun f => { t with names := f }

/-- The severity of the longest name that covers the dependent, or else of the wildcard. -/
def judge (t : Tree) (dependent : String) : Option Severity :=
  (t.names.deepest (Name.parts dependent) none).or t.wildcard

/-- The dependents that have a severity, as they are written. -/
def entries (t : Tree) : List (String × Severity) :=
  t.names.entries.map (fun e => (".".intercalate e.1, e.2))
    ++ t.wildcard.toList.map (fun v => (Name.wildcard, v))

end Tree

structure Index where
  trees : List (String × Tree)
  /-- The number of rules in the trees. -/
  ruleCount : Nat
  deriving DecidableEq, Repr

namespace Index

def empty : Index := ⟨[], 0⟩

/-- Puts a rule into the tree of its dependency, which is made if there is none. -/
def insertTree (r : Rule) : List (String × Tree) → Except Severity (List (String × Tree))
  | [] => (Tree.empty.insert r.dependent r.severity).map fun t => [(r.dependency.text, t)]
  | (x, t) :: rest =>
    if x = r.dependency.text then
      (t.insert r.dependent r.severity).map fun t' => (x, t') :: rest
    else (insertTree r rest).map ((x, t) :: ·)

/-- Adds a rule; it conflicts with the rule whose place in the tree it would take. -/
def insert (index : Index) (r : Rule) : Except Conflict Index :=
  match insertTree r index.trees with
  | .error old => .error ⟨{ r with severity := old }, r⟩
  | .ok trees => .ok ⟨trees, index.ruleCount + 1⟩

/-- Makes a judge of rules without a conflict. -/
def ofRules (rules : List Rule) : Except Conflict Index :=
  rules.foldlM insert empty

/-- The rules that are looked at when `rules` are added one after another: up to the first that
conflicts, and that one too. -/
def attempted (index : Index) : List Rule → List Rule
  | [] => []
  | r :: rest =>
    match index.insert r with
    | .error _ => [r]
    | .ok next => r :: next.attempted rest

/-- The severity of the most specific rule that applies. -/
def judge (index : Index) : Judge := fun dependent dependency =>
  (index.trees.lookup dependency).bind fun t => t.judge dependent

/-- The rules in the trees, as dependent, dependency and severity. -/
def entries (index : Index) : List (String × String × Severity) :=
  index.trees.flatMap fun (x, t) => t.entries.map fun (d, v) => (d, x, v)

end Index

end ApiGate
