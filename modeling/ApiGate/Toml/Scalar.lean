import ApiGate.Text

/-!
# Numbers, truth values, dates and times

A configuration makes no use of these values, yet a document that gets one of them wrong is no
document. Each reader here therefore answers only what follows the value.

* Digits may be grouped by single low lines; an integer must fit into 64 bits with a sign.
* A decimal number must not be so large that it rounds to infinity, though it may be so small.
* A date must exist in the calendar, and a minute may have a leap second.
-/

namespace ApiGate.Toml.Scalar

def isDigit (c : Char) : Bool := '0' ≤ c && c ≤ '9'

/-- The value of a digit of any base up to sixteen; other characters are no digits of any. -/
def digitValue (c : Char) : Nat := (Text.hexValue? c).getD 16

/-- Digits below `base` that go on a number, each of which may have a low line before it. -/
def moreDigits (base : Nat) : List Char → Option (List Nat × List Char)
  | [] => some ([], [])
  | '_' :: rest =>
    match rest with
    | [] => none
    | c :: rest =>
      if digitValue c < base then
        (moreDigits base rest).map fun (ds, after) => (digitValue c :: ds, after)
      else none
  | c :: rest =>
    if digitValue c < base then
      (moreDigits base rest).map fun (ds, after) => (digitValue c :: ds, after)
    else some ([], c :: rest)

/-- A number's digits below `base`: at least one. -/
def digits (base : Nat) : List Char → Option (List Nat × List Char)
  | [] => none
  | c :: rest =>
    if digitValue c < base then
      (moreDigits base rest).map fun (ds, after) => (digitValue c :: ds, after)
    else none

def value (base : Nat) (ds : List Nat) : Nat :=
  ds.foldl (fun n d => base * n + d) 0

/-- The digits before the point of a decimal number: a leading zero stands alone. -/
def wholeDigits : List Char → Option (List Nat × List Char)
  | '0' :: rest => some ([0], rest)
  | cs => digits 10 cs

/-- Whether `m` times ten to the power `e` rounds to infinity: whether it reaches the middle between
the largest number of 64 bits and the next power of two. -/
def roundsToInfinity (m : Nat) (e : Int) : Bool :=
  let bound := Nat.pow 2 1024 - Nat.pow 2 970
  if m = 0 then false
  else if 0 ≤ e then 400 ≤ e || bound ≤ m * Nat.pow 10 e.toNat
  else m.log2 ≥ (-e).toNat && bound * Nat.pow 10 (-e).toNat ≤ m

/-- The sign of a number: whether it is negative, and what follows. -/
def sign : List Char → Bool × List Char
  | '-' :: rest => (true, rest)
  | '+' :: rest => (false, rest)
  | cs => (false, cs)

/-- The exponent of a number, 0 if it has none. -/
def exponent : List Char → Option (Int × List Char)
  | c :: rest =>
    if c = 'e' ∨ c = 'E' then
      let (negative, rest) := sign rest
      (digits 10 rest).map fun (ds, after) =>
        (if negative then -(value 10 ds : Int) else (value 10 ds : Int), after)
    else some (0, c :: rest)
  | [] => some (0, [])

/-- Whether an integer with a sign fits into 64 bits. -/
def fits (negative : Bool) (n : Nat) : Bool :=
  if negative then n ≤ Nat.pow 2 63 else n < Nat.pow 2 63

/-- Reads a decimal number, with or without fraction and exponent. -/
def decimal (cs : List Char) : Option (List Char) := do
  let (negative, cs) := sign cs
  let (whole, rest) ← wholeDigits cs
  match rest with
  | '.' :: rest =>
    let (fraction, rest) ← digits 10 rest
    let (e, rest) ← exponent rest
    if !negative && roundsToInfinity (value 10 (whole ++ fraction)) (e - fraction.length) then none
    else some rest
  | c :: _ =>
    if c = 'e' ∨ c = 'E' then
      let (e, rest) ← exponent rest
      if !negative && roundsToInfinity (value 10 whole) e then none else some rest
    else if fits negative (value 10 whole) then some rest else none
  | [] => if fits negative (value 10 whole) then some [] else none

/-- Reads an integer of a base with a letter of its own. -/
def based (base : Nat) (cs : List Char) : Option (List Char) := do
  let (ds, rest) ← digits base cs
  if fits false (value base ds) then some rest else none

def word? (w : String) (cs : List Char) : Option (List Char) :=
  if w.toList.isPrefixOf cs then some (cs.drop w.length) else none

def number (cs : List Char) : Option (List Char) :=
  match cs with
  | '0' :: 'x' :: rest => based 16 rest
  | '0' :: 'o' :: rest => based 8 rest
  | '0' :: 'b' :: rest => based 2 rest
  | _ => (decimal cs).or ((word? "inf" (sign cs).2).or (word? "nan" (sign cs).2))

/-- Reads a number of two digits from `lo` to `hi`. -/
def twoDigits (lo hi : Nat) : List Char → Option (Nat × List Char)
  | a :: b :: rest =>
    let n := 10 * digitValue a + digitValue b
    if isDigit a && isDigit b && lo ≤ n && n ≤ hi then some (n, rest) else none
  | _ => none

def daysOf (year month : Nat) : Nat :=
  if month = 2 then
    if year % 4 = 0 ∧ (year % 100 ≠ 0 ∨ year % 400 = 0) then 29 else 28
  else if month = 4 ∨ month = 6 ∨ month = 9 ∨ month = 11 then 30
  else 31

def char? (c : Char) : List Char → Option (List Char)
  | d :: rest => if d = c then some rest else none
  | [] => none

def date (cs : List Char) : Option (List Char) := do
  let (century, cs) ← twoDigits 0 99 cs
  let (year, cs) ← twoDigits 0 99 cs
  let cs ← char? '-' cs
  let (month, cs) ← twoDigits 1 12 cs
  let cs ← char? '-' cs
  let (_, cs) ← twoDigits 1 (daysOf (100 * century + year) month) cs
  return cs

/-- What follows the fraction of a second, if there is one. -/
def dropFraction (cs : List Char) : List Char :=
  match cs with
  | '.' :: c :: rest => if isDigit c then rest.dropWhile isDigit else cs
  | _ => cs

def time (cs : List Char) : Option (List Char) := do
  let (_, cs) ← twoDigits 0 23 cs
  let cs ← char? ':' cs
  let (_, cs) ← twoDigits 0 59 cs
  let cs ← char? ':' cs
  let (_, cs) ← twoDigits 0 60 cs
  return dropFraction cs

/-- Reads how far a time is from the world's, if it is said. -/
def offset (cs : List Char) : Option (List Char) :=
  match cs with
  | 'Z' :: rest | 'z' :: rest => some rest
  | c :: rest =>
    if c = '+' ∨ c = '-' then do
      let (_, cs) ← twoDigits 0 23 rest
      let cs ← char? ':' cs
      let (_, cs) ← twoDigits 0 59 cs
      return cs
    else some (c :: rest)
  | [] => some []

/-- Reads a date, which a time may follow after a letter or a space. A space alone does not call
for a time. -/
def dateAndTime (cs : List Char) : Option (List Char) := do
  let rest ← date cs
  match rest with
  | c :: after =>
    if c = 'T' ∨ c = 't' ∨ (c = ' ' ∧ (twoDigits 0 23 after).isSome) then
      offset (← time after)
    else some rest
  | [] => some rest

/-- Whether a date follows: four digits and a hyphen. -/
def opensDate : List Char → Bool
  | a :: b :: c :: d :: '-' :: _ => [a, b, c, d].all isDigit
  | _ => false

/-- Whether a time follows: two digits and a colon. -/
def opensTime : List Char → Bool
  | a :: b :: ':' :: _ => [a, b].all isDigit
  | _ => false

/-- Reads a number, a truth value, a date or a time. -/
def read (cs : List Char) : Option (List Char) :=
  if opensDate cs then dateAndTime cs
  else if opensTime cs then time cs
  else (number cs).or ((word? "true" cs).or (word? "false" cs))

end ApiGate.Toml.Scalar
