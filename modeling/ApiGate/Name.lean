import ApiGate.Text

/-!
# Names of types and packages

A name is the wildcard `*` or a sequence of parts joined by dots, each of them a start character
followed by part characters. `Name.defect?` finds the first defect of a text, and a `Name` is a text
without one.

* An empty text has no parts worth looking at: its defect is that the name is missing.
* Otherwise the leftmost bad part decides, and in that part its leftmost bad character.
-/

namespace ApiGate

/-- The side of a rule that a name stands on. -/
inductive Role where
  /-- The type or package that uses an internal API. -/
  | dependent
  /-- The internal API that is used. -/
  | dependency
  deriving DecidableEq, Repr

def Role.field : Role → String
  | .dependent => "dependent"
  | .dependency => "dependency"

/-- What keeps a text from being a name. -/
inductive Defect where
  | missing
  /-- A part is empty: a dot stands at an end or next to a dot. -/
  | emptyPart
  /-- A part opens with a character that may not open one. -/
  | badStart (c : Char)
  /-- A part goes on with a character that may not stand in one. -/
  | badPart (c : Char)
  deriving DecidableEq, Repr

def Defect.ofPart? : List Char → Option Defect
  | [] => some .emptyPart
  | c :: cs =>
    if Chars.isStart c then (cs.find? fun d => !Chars.isPart d).map .badPart
    else some (.badStart c)

namespace Name

/-- The name that stands for every type and package. -/
def wildcard : String := "*"

/-- The parts of a text, cut at its dots. -/
def parts (text : String) : List String :=
  (text.toList.splitOn '.').map String.ofList

/-- The first defect of a text, read as a name. -/
def defect? (text : String) : Option Defect :=
  if text = "" then some .missing
  else if text = wildcard then none
  else (text.toList.splitOn '.').findSome? Defect.ofPart?

end Name

structure Name where
  text : String
  /-- It has no defect. -/
  sound : Name.defect? text = none
  deriving DecidableEq

/-- A text in a rule is no name. -/
structure NameError where
  /-- The canonical text of the rule, by which the user finds it. -/
  rule : String
  /-- The side of the rule that the text stands on. -/
  role : Role
  name : String
  defect : Defect
  deriving DecidableEq

namespace NameError

def message (e : NameError) : String :=
  match e.defect with
  | .missing => "The rule " ++ e.rule ++ " defines no " ++ e.role.field ++ "."
  | .emptyPart =>
    "In the rule " ++ e.rule ++ " the name '" ++ e.name ++ "' contains one empty part."
  | .badStart c =>
    "In the rule " ++ e.rule ++ " a part of the name '" ++ e.name
      ++ "' starts with the invalid character '" ++ c.toString ++ "'."
  | .badPart c =>
    "In the rule " ++ e.rule ++ " the name '" ++ e.name
      ++ "' contains the invalid character '" ++ c.toString ++ "'."

/-- The code under which the error is documented. -/
def code (e : NameError) : String :=
  match e.defect with
  | .missing => "jdeps_guard::identifier::undefined"
  | .emptyPart => "jdeps_guard::identifier::empty_part"
  | .badStart _ => "jdeps_guard::identifier::invalid_start"
  | .badPart _ => "jdeps_guard::identifier::invalid_part"

def help (e : NameError) : Option String :=
  match e.defect with
  | .emptyPart => some "remove the leading, trailing or doubled '.'"
  | _ => none

end NameError

namespace Name

/-- Whether the name stands for every type and package. -/
def isWildcard (n : Name) : Bool := n.text == wildcard

/-- Reads the name that the rule with the canonical text `rule` has on the side `role`. -/
def ofText (rule : String) (role : Role) (text : String) : Except NameError Name :=
  match h : defect? text with
  | none => .ok ⟨text, h⟩
  | some d => .error ⟨rule, role, text, d⟩

theorem ext_text {n m : Name} (h : n.text = m.text) : n = m := by
  cases n; cases m; simp_all

theorem ofText_text (rule : String) (role : Role) (n : Name) :
    ofText rule role n.text = .ok n := by
  unfold ofText
  split
  · rfl
  · rename_i d h
    rw [n.sound] at h
    contradiction

@[simp] theorem ofText_eq_ok_iff {rule : String} {role : Role} {text : String} {n : Name} :
    ofText rule role text = .ok n ↔ text = n.text := by
  constructor
  · intro h
    unfold ofText at h
    split at h
    · cases h; rfl
    · cases h
  · intro h
    rw [h]
    exact ofText_text rule role n

theorem ofText_eq_error_iff {rule : String} {role : Role} {text : String} {e : NameError} :
    ofText rule role text = .error e ↔ ∃ d, defect? text = some d ∧ e = ⟨rule, role, text, d⟩ := by
  unfold ofText
  split
  · rename_i h
    simp [h]
  · rename_i d h
    simp only [h, Except.error.injEq, Option.some.injEq, exists_eq_left']
    exact eq_comm

end Name

end ApiGate
