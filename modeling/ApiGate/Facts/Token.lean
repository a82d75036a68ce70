import ApiGate.Text

/-!
# Tokens of a facts file

A facts file is JSON, of which it uses braces, brackets, colons, commas and quoted texts. Anything
else, such as a number, ends the reading.

A quoted text is read one character at a time. An escape by code unit may be one half of a pair,
and then the other half has to follow at once.
-/

namespace ApiGate.Facts

inductive Token where
  | openBrace
  | closeBrace
  | openBracket
  | closeBracket
  | colon
  | comma
  | text (s : String)
  deriving DecidableEq, Repr

/-- What the reader of a quoted text is in the middle of. -/
inductive Pending where
  /-- The text itself. -/
  | plain
  /-- An escape, after the first half of a pair or alone. -/
  | escape (high : Option Nat)
  /-- An escape by code unit: the digits that are left and the value so far. -/
  | unit (high : Option Nat) (left value : Nat)
  /-- The first half of a pair, whose second half is to follow. -/
  | half (high : Nat)
  deriving DecidableEq, Repr

/-- What the reader of a facts file is in the middle of. -/
inductive Position where
  /-- No token. -/
  | between
  /-- A quoted text, with the characters read so far, the last one first. -/
  | inside (read : List Char) (pending : Pending)
  deriving DecidableEq, Repr

namespace Token

def ofChar? : Char → Option Token
  | '{' => some .openBrace
  | '}' => some .closeBrace
  | '[' => some .openBracket
  | ']' => some .closeBracket
  | ':' => some .colon
  | ',' => some .comma
  | _ => none

/-- Characters that may stand between tokens. -/
def isSpace (c : Char) : Bool := c = ' ' || c = '\t' || c = '\n' || c = '\r'

/-- The character that a letter stands for after a backslash. -/
def escaped? : Char → Option Char
  | '"' => some '"'
  | '\\' => some '\\'
  | '/' => some '/'
  | 'b' => some '\x08'
  | 'f' => some '\x0C'
  | 'n' => some '\n'
  | 'r' => some '\r'
  | 't' => some '\t'
  | _ => none

/-- The character of a code unit, or what is pending after it. -/
def ofUnit (high : Option Nat) (n : Nat) : Option (List Char × Pending) :=
  match high with
  | none =>
    if 0xD800 ≤ n ∧ n < 0xDC00 then some ([], .half n)
    else if 0xDC00 ≤ n ∧ n < 0xE000 then none
    else some ([Char.ofNat n], .plain)
  | some h =>
    if 0xDC00 ≤ n ∧ n < 0xE000 then
      some ([Char.ofNat (0x10000 + (h - 0xD800) * 0x400 + (n - 0xDC00))], .plain)
    else none

/-- One character of a quoted text: what it adds to the text, and what is pending after it. -/
def step : Pending → Char → Option (List Char × Pending)
  | .plain, c =>
    if c = '\\' then some ([], .escape none)
    else if 0x20 ≤ c.toNat then some ([c], .plain)
    else none
  | .escape high, c =>
    if c = 'u' then some ([], .unit high 4 0)
    else if high.isSome then none
    else (escaped? c).map fun d => ([d], .plain)
  | .unit high left value, c =>
    (Text.hexValue? c).bind fun d =>
      if left = 1 then ofUnit high (16 * value + d)
      else some ([], .unit high (left - 1) (16 * value + d))
  | .half high, c => if c = '\\' then some ([], .escape (some high)) else none

def ofChars? : Position → List Char → Option (List Token)
  | .between, [] => some []
  | .inside _ _, [] => none
  | .between, c :: rest =>
    if isSpace c then ofChars? .between rest
    else if c = '"' then ofChars? (.inside [] .plain) rest
    else
      match ofChar? c with
      | some token => (ofChars? .between rest).map (token :: ·)
      | none => none
  | .inside read pending, c :: rest =>
    if pending = .plain ∧ c = '"' then
      (ofChars? .between rest).map (.text (String.ofList read.reverse) :: ·)
    else
      match step pending c with
      | some (out, next) => ofChars? (.inside (out ++ read) next) rest
      | none => none

end Token

end ApiGate.Facts
