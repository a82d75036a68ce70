/-!
# TOML values and the making of tables

A document is a sequence of headers and of pairs, and each of them changes the tables made so far.
What may still be added to a table depends on how it came to be, its `Origin`:

* an *inline* table is complete when it is closed;
* a table *declared* by its own header takes the pairs below that header, and no others;
* a table *implied* by the header of a table inside it may still be declared;
* a table made by a *dotted* key takes further dotted keys.

`Value.assign` adds a pair, `Value.enter` works inside the table that a header names. Neither ever
changes a value that is there.
-/

namespace ApiGate.Toml

inductive Origin where
  /-- Written in braces. -/
  | inline
  /-- By a header of its own. -/
  | declared
  /-- By the header of a table inside it. -/
  | implied
  /-- By a dotted key. -/
  | dotted
  deriving DecidableEq, Repr

/-- A value of a document. Numbers, truth values and dates are checked when they are read, and are
all alike afterwards. -/
inductive Value where
  | text (s : String)
  /-- A number, a truth value, a date or a time. -/
  | scalar
  | array (items : List Value)
  | table (origin : Origin) (fields : List (String × Value))
  /-- The tables that stand each under the same doubled header. -/
  | tables (elements : List (List (String × Value)))

abbrev Fields := List (String × Value)

namespace Value

/-- Gives a key a value, in place of the one it has. -/
def put (key : String) (value : Value) : Fields → Fields
  | [] => [(key, value)]
  | (k, v) :: rest => if k = key then (k, value) :: rest else (k, v) :: put key value rest

/-- Replaces the last of some tables. -/
def replaceLast (elements : List Fields) (last : Fields) : Value :=
  .tables (elements.dropLast ++ [last])

/-- Adds a pair with a dotted key. The table that takes the value must be the one at hand or have
been made by a dotted key itself; on the way there, tables implied by headers may be passed. -/
def assign (value : Value) : List String → Fields → Option Fields
  | [], _ => none
  | [key], fields =>
    if (fields.lookup key).isSome then none else some (put key value fields)
  | key :: path, fields =>
    match fields.lookup key with
    | none => (assign value path []).map fun sub => put key (.table .dotted sub) fields
    | some (.table .dotted sub) =>
      (assign value path sub).map fun sub => put key (.table .dotted sub) fields
    | some (.table .implied sub) =>
      -- it may be passed, but does not take the value itself
      if path.length = 1 then none
      else (assign value path sub).map fun sub => put key (.table .implied sub) fields
    | some (.tables elements) =>
      if path.length = 1 then none
      else
        (assign value path (elements.getLastD [])).map fun sub =>
          put key (replaceLast elements sub) fields
    | some _ => none

/-- Changes the table that a header names, or the last of the tables under a doubled header. A
table on the way that is missing is implied. -/
def enter (change : Fields → Option Fields) : List String → Fields → Option Fields
  | [], fields => change fields
  | key :: path, fields =>
    match fields.lookup key with
    | none => (enter change path []).map fun sub => put key (.table .implied sub) fields
    -- what is written in braces is complete
    | some (.table .inline _) => none
    | some (.table origin sub) =>
      (enter change path sub).map fun sub => put key (.table origin sub) fields
    | some (.tables elements) =>
      (enter change path (elements.getLastD [])).map fun sub =>
        put key (replaceLast elements sub) fields
    | some _ => none

def declare (key : String) (fields : Fields) : Option Fields :=
  match fields.lookup key with
  | none => some (put key (.table .declared []) fields)
  | some (.table .implied sub) => some (put key (.table .declared sub) fields)
  | some _ => none

/-- Opens one more of the tables under a doubled header. -/
def addElement (key : String) (fields : Fields) : Option Fields :=
  match fields.lookup key with
  | none => some (put key (.tables [[]]) fields)
  | some (.tables elements) => some (put key (.tables (elements ++ [[]])) fields)
  | some _ => none

/-- The table made of the pairs in braces. -/
def ofPairs? (pairs : List (List String × Value)) : Option Value :=
  (pairs.foldlM (fun fields (path, value) => assign value path fields) []).map (.table .inline)

end Value

inductive Statement where
  /-- The header of a table. -/
  | header (path : List String) (key : String)
  | element (path : List String) (key : String)
  /-- A pair of the table at hand. -/
  | pair (path : List String) (value : Value)

/-- The tables made so far, and the path of the table at hand. -/
structure Tables where
  /-- The pairs of the document itself. -/
  root : Fields
  /-- The table that takes the next pair. -/
  cursor : List String

namespace Tables

/-- The document at its start, where pairs go into the document itself. -/
def start : Tables := ⟨[], []⟩

def apply (t : Tables) : Statement → Option Tables
  | .header path key =>
    (Value.enter (Value.declare key) path t.root).map fun root => ⟨root, path ++ [key]⟩
  | .element path key =>
    (Value.enter (Value.addElement key) path t.root).map fun root => ⟨root, path ++ [key]⟩
  | .pair path value =>
    (Value.enter (Value.assign value path) t.cursor t.root).map fun root => { t with root := root }

def ofStatements? (statements : List Statement) : Option Fields :=
  (statements.foldlM apply start).map (·.root)

end Tables

end ApiGate.Toml
