import ApiGate.Toml.Value
import ApiGate.Toml.Quoted
import ApiGate.Toml.Scalar

/-!
# Reading TOML documents

A document is read line by line into statements, and the statements make its tables.

* Blanks are spaces and tabs; a line ends with a line feed, a carriage return directly before it
  included. A carriage return anywhere else is an error.
* Inside an array, blanks, line ends and comments may stand between any two pieces; inside braces
  only blanks.
* A dotted key has fewer than eighty parts, and values are nested less than eighty deep. The bounds
  are part of the format here, and make the recursion on nested values end.
-/

namespace ApiGate.Toml

/-- Text without the spaces and tabs at its start. -/
def skipBlanks (cs : List Char) : List Char :=
  cs.dropWhile fun c => c = ' ' || c = '\t'

def isCommentChar (c : Char) : Bool := Quoted.isPlain c

/-- Text without the comment at its start. -/
def skipComment : List Char → List Char
  | '#' :: rest => rest.dropWhile isCommentChar
  | cs => cs

/-- What follows the end of a line, which may have blanks and a comment before it. -/
def endLine? (cs : List Char) : Option (List Char) :=
  match skipComment (skipBlanks cs) with
  | [] => some []
  | '\n' :: rest => some rest
  | '\r' :: '\n' :: rest => some rest
  | _ => none

/-- Text without the blanks, line ends and comments at its start; `inComment` tells whether it
starts in a comment. -/
def skipSpace : (inComment : Bool) → List Char → List Char
  | _, [] => []
  | _, '\n' :: rest => skipSpace false rest
  | _, '\r' :: '\n' :: rest => skipSpace false rest
  | true, c :: rest => if isCommentChar c then skipSpace true rest else c :: rest
  | false, c :: rest =>
    if c = ' ' ∨ c = '\t' then skipSpace false rest
    else if c = '#' then skipSpace true rest
    else c :: rest

def isKeyChar (c : Char) : Bool := c.isAlphanum || c = '_' || c = '-'

def readKeyPart (cs : List Char) : Option (String × List Char) :=
  match cs with
  | c :: _ =>
    if c = '"' ∨ c = '\'' then Quoted.readShort cs
    else if isKeyChar c then some (String.ofList (cs.takeWhile isKeyChar), cs.dropWhile isKeyChar)
    else none
  | [] => none

/-- Reads a key of at most so many parts, with the blanks around each. -/
def readKey : Nat → List Char → Option (List String × List Char)
  | 0, _ => none
  | n + 1, cs => do
    let (part, rest) ← readKeyPart (skipBlanks cs)
    match skipBlanks rest with
    | '.' :: rest =>
      let (parts, rest) ← readKey n rest
      return (part :: parts, rest)
    | rest => return ([part], rest)

/-- The greatest number of parts of a key, and of arrays and tables inside one another. -/
def depthLimit : Nat := 79

mutual

/-- Reads a value, with at most `depth` arrays and tables inside one another. The number `fuel`
only has to be large enough: reading `n` characters takes no more than `2 * n + 2` steps. -/
def readValue : (fuel depth : Nat) → List Char → Option (Value × List Char)
  | 0, _, _ => none
  | fuel + 1, depth, cs =>
    match cs, depth with
    | '[' :: rest, depth + 1 =>
      (readItems fuel depth rest).map fun (items, rest) => (.array items, rest)
    | '{' :: rest, depth + 1 => do
      let (pairs, rest) ←
        match skipBlanks rest with
        | '}' :: rest => some ([], rest)
        | rest => readPairs fuel depth rest
      return (← Value.ofPairs? pairs, rest)
    | '[' :: _, 0 => none
    | '{' :: _, 0 => none
    | c :: _, _ =>
      if c = '"' ∨ c = '\'' then (Quoted.read cs).map fun (text, rest) => (.text text, rest)
      else (Scalar.read cs).map fun rest => (.scalar, rest)
    | [], _ => none

/-- Reads the items of an array up to its closing bracket. -/
def readItems : (fuel depth : Nat) → List Char → Option (List Value × List Char)
  | 0, _, _ => none
  | fuel + 1, depth, cs =>
    match skipSpace false cs with
    -- also after a comma
    | ']' :: rest => some ([], rest)
    | cs => do
      let (item, rest) ← readValue fuel depth cs
      match skipSpace false rest with
      | ']' :: rest => return ([item], rest)
      | ',' :: rest =>
        let (items, rest) ← readItems fuel depth rest
        return (item :: items, rest)
      | _ => none

/-- Reads the pairs of a table up to its closing brace. -/
def readPairs : (fuel depth : Nat) → List Char → Option (List (List String × Value) × List Char)
  | 0, _, _ => none
  | fuel + 1, depth, cs => do
    let (key, rest) ← readKey depthLimit cs
    let rest ← Scalar.char? '=' rest
    let (value, rest) ← readValue fuel depth (skipBlanks rest)
    match skipBlanks rest with
    | '}' :: rest => return ([(key, value)], rest)
    -- a brace cannot follow a comma
    | ',' :: rest =>
      let (pairs, rest) ← readPairs fuel depth rest
      return ((key, value) :: pairs, rest)
    | _ => none

end

/-- Reads a header, after its opening brackets, up to the end of its line. -/
def readHeader (closing : String) (cs : List Char) : Option (List String × List Char) := do
  let (key, rest) ← readKey depthLimit cs
  let rest ← Scalar.word? closing rest
  return (key, ← endLine? rest)

/-- Reads the statement at the start of a line that has one, up to the end of the line. -/
def readStatement (cs : List Char) : Option (Statement × List Char) :=
  match cs with
  | '[' :: '[' :: rest => do
    let (key, rest) ← readHeader "]]" rest
    return (.element key.dropLast (key.getLastD ""), rest)
  | '[' :: rest => do
    let (key, rest) ← readHeader "]" rest
    return (.header key.dropLast (key.getLastD ""), rest)
  | _ => do
    let (key, rest) ← readKey depthLimit cs
    let rest ← Scalar.char? '=' rest
    let (value, rest) ← readValue (2 * rest.length + 2) depthLimit (skipBlanks rest)
    return (.pair key value, ← endLine? rest)

/-- Reads the statements of a document; every line takes a step, and the last a second one. -/
def readStatements : (fuel : Nat) → List Char → Option (List Statement)
  | 0, _ => none
  | fuel + 1, cs =>
    match skipBlanks cs with
    | [] => some []
    | c :: rest =>
      if c = '#' ∨ c = '\n' ∨ c = '\r' then
        (endLine? (c :: rest)).bind (readStatements fuel)
      else
        (readStatement (c :: rest)).bind fun (statement, rest) =>
          (readStatements fuel rest).map (statement :: ·)

/-- Text without the byte order mark at its start. -/
def dropMark : List Char → List Char
  | '\uFEFF' :: rest => rest
  | cs => cs

def parse? (text : String) : Option Fields :=
  let cs := dropMark text.toList
  (readStatements (cs.length + 1) cs).bind Tables.ofStatements?

end ApiGate.Toml
