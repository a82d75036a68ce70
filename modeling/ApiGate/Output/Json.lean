/-!
# JSON output

Values are written with two spaces of indentation, one item or field a line, and an empty list in
one piece. Inside texts only the quotation mark, the backslash and the control characters below the
space are escaped.
-/

namespace ApiGate

inductive Json where
  | text (s : String)
  | number (n : Nat)
  | list (items : List Json)
  /-- An object with its fields in order. -/
  | object (fields : List (String × Json))

namespace Json

/-- A character inside a quoted text. -/
def escape (c : Char) : List Char :=
  match c with
  | '"' => ['\\', '"']
  | '\\' => ['\\', '\\']
  | '\x08' => ['\\', 'b']
  | '\t' => ['\\', 't']
  | '\n' => ['\\', 'n']
  | '\x0C' => ['\\', 'f']
  | '\r' => ['\\', 'r']
  | c =>
    if c.toNat < 0x20 then
      ['\\', 'u', '0', '0', (c.toNat / 16).digitChar, (c.toNat % 16).digitChar]
    else [c]

def quote (s : String) : String :=
  String.ofList ('"' :: s.toList.flatMap escape ++ ['"'])

def newLine (indent : Nat) : String :=
  String.ofList ('\n' :: List.replicate indent ' ')

mutual

/-- A value in full, inside a line with the given indentation. -/
def pretty (indent : Nat) : Json → String
  | .text s => quote s
  | .number n => toString n
  | .list [] => "[]"
  | .list (item :: items) =>
    "[" ++ newLine (indent + 2) ++ pretty (indent + 2) item ++ prettyItems (indent + 2) items
      ++ newLine indent ++ "]"
  | .object [] => "\x7b\x7d"
  | .object ((key, value) :: fields) =>
    "\x7b" ++ newLine (indent + 2) ++ quote key ++ ": " ++ pretty (indent + 2) value
      ++ prettyFields (indent + 2) fields ++ newLine indent ++ "\x7d"

/-- The items of a list after its first, each after a comma. -/
def prettyItems (indent : Nat) : List Json → String
  | [] => ""
  | item :: items => "," ++ newLine indent ++ pretty indent item ++ prettyItems indent items

/-- The fields of an object after its first, each after a comma. -/
def prettyFields (indent : Nat) : List (String × Json) → String
  | [] => ""
  | (key, value) :: fields =>
    "," ++ newLine indent ++ quote key ++ ": " ++ pretty indent value ++ prettyFields indent fields

end

end Json

end ApiGate
