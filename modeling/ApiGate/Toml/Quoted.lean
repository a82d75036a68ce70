import ApiGate.Text

/-!
# Quoted texts

Texts are quoted by `"` or `'`, on one line by a single mark and on any number of lines by three.
Between double quotes a backslash opens an escape; between single quotes it is a plain character.

The reader goes through the text one character at a time, and its `State` is what it is in the
middle of. In a text of several lines

* a line feed directly after the opening marks does not count, and every line end is a line feed;
* a backslash at the end of a line swallows all blanks and line ends up to the next character;
* one or two marks may stand in the text, also directly before the closing three.
-/

namespace ApiGate.Toml

/-- What the reader of a quoted text is in the middle of. -/
inductive Quoted.State where
  /-- The text itself. -/
  | plain
  /-- A line end of two characters. -/
  | lineEnd
  | escape
  /-- An escape by code point: the digits that are left and the value so far. -/
  | code (left value : Nat)
  /-- A backslash before blanks; `broken` once a line has ended. -/
  | fold (broken : Bool)
  /-- The same, in a line end of two characters. -/
  | foldLineEnd
  /-- A run of quotation marks. -/
  | marks (n : Nat)
  deriving DecidableEq, Repr

namespace Quoted

def charOf? (n : Nat) : Option Char :=
  if n.isValidChar then some (Char.ofNat n) else none

/-- Characters that stand for themselves. -/
def isPlain (c : Char) : Bool :=
  c = '\t' || (0x20 ≤ c.toNat && c.toNat ≠ 0x7F)

/-- The character that a letter stands for after a backslash. -/
def escaped? : Char → Option Char
  | 'b' => some '\x08'
  | 't' => some '\t'
  | 'n' => some '\n'
  | 'f' => some '\x0C'
  | 'r' => some '\r'
  | '"' => some '"'
  | '\\' => some '\\'
  | _ => none

/-- One character of the text itself: what it adds to the text, and the state after it. -/
def stepPlain (mark c : Char) : Option (List Char × State) :=
  if c = mark then some ([], .marks 1)
  else if c = '\\' ∧ mark = '"' then some ([], .escape)
  else if c = '\n' then some (['\n'], .plain)
  else if c = '\r' then some ([], .lineEnd)
  else if isPlain c then some ([c], .plain)
  else none

def step (mark : Char) : State → Char → Option (List Char × State)
  | .plain, c => stepPlain mark c
  | .lineEnd, c => if c = '\n' then some (['\n'], .plain) else none
  | .escape, c =>
    if c = 'u' then some ([], .code 4 0)
    else if c = 'U' then some ([], .code 8 0)
    else if c = ' ' ∨ c = '\t' then some ([], .fold false)
    else if c = '\n' then some ([], .fold true)
    else if c = '\r' then some ([], .foldLineEnd)
    else (escaped? c).map fun d => ([d], .plain)
  | .code left value, c =>
    (Text.hexValue? c).bind fun d =>
      if left = 1 then (charOf? (16 * value + d)).map fun e => ([e], .plain)
      else some ([], .code (left - 1) (16 * value + d))
  | .fold broken, c =>
    if c = ' ' ∨ c = '\t' then some ([], .fold broken)
    else if c = '\n' then some ([], .fold true)
    else if c = '\r' then some ([], .foldLineEnd)
    else if broken then stepPlain mark c
    else none
  | .foldLineEnd, c => if c = '\n' then some ([], .fold true) else none
  | .marks n, c =>
    if c = mark then (if n < 5 then some ([], .marks (n + 1)) else none)
    else (stepPlain mark c).map fun (out, s) => (List.replicate n mark ++ out, s)

/-- The rest of a text on one line, and what follows its closing mark. -/
def readLine (mark : Char) : State → List Char → Option (List Char × List Char)
  | _, [] => none
  | state, c :: rest =>
    if state = .plain ∧ c = mark then some ([], rest)
    else if c = '\n' ∨ c = '\r' then none
    else
      match step mark state c with
      | none => none
      | some (out, next) =>
        (readLine mark next rest).map fun (text, after) => (out ++ text, after)

/-- The number of marks that a run of at least three of them adds to the text before it closes. -/
def closing? : State → Option Nat
  | .marks n => if 3 ≤ n then some (n - 3) else none
  | _ => none

/-- The rest of a text on several lines, and what follows its closing marks. -/
def readLines (mark : Char) : State → List Char → Option (List Char × List Char)
  | state, [] => (closing? state).map fun n => (List.replicate n mark, [])
  | state, c :: rest =>
    match if c = mark then none else closing? state with
    | some n => some (List.replicate n mark, c :: rest)
    | none =>
      match step mark state c with
      | none => none
      | some (out, next) =>
        (readLines mark next rest).map fun (text, after) => (out ++ text, after)

/-- The text without a line end at its start. -/
def dropLineEnd : List Char → List Char
  | '\n' :: rest => rest
  | '\r' :: '\n' :: rest => rest
  | cs => cs

/-- Reads a text quoted on one line. -/
def readShort : List Char → Option (String × List Char)
  | c :: rest =>
    if c = '"' ∨ c = '\'' then
      (readLine c .plain rest).map fun (text, after) => (String.ofList text, after)
    else none
  | [] => none

/-- Reads a quoted text of either kind. -/
def read : List Char → Option (String × List Char)
  | a :: b :: c :: rest =>
    if a = b ∧ b = c ∧ (c = '"' ∨ c = '\'') then
      (readLines c .plain (dropLineEnd rest)).map fun (text, after) => (String.ofList text, after)
    else readShort (a :: b :: c :: rest)
  | cs => readShort cs

end Quoted

end ApiGate.Toml
