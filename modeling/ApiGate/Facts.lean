import ApiGate.Event
import ApiGate.Facts.Token
import ApiGate.Table

/-!
# Facts files

A facts file is an object that lists, for each analysed type, the internal APIs the type depends
on. If it repeats a type, the last list counts.

From such a list of facts, types with a blank name are left out, then blank dependencies, then types
that have no dependencies left. Names keep the blanks around them. Nothing is left out silently:
there is an event for each of the three.
-/

namespace ApiGate.Facts

mutual

/-- Reads the pairs of an object up to the end of the file. -/
def readPairs : List Token → Option (List (String × List String))
  -- a list may be empty, but after a comma there is an item
  | .text key :: .colon :: .openBracket :: .closeBracket :: rest => readNext (key, []) rest
  | .text key :: .colon :: .openBracket :: rest => readItems key [] rest
  | _ => none

/-- Reads the rest of a list, of which some items are read. -/
def readItems (key : String) (read : List String) :
    List Token → Option (List (String × List String))
  | .text item :: .comma :: rest => readItems key (read ++ [item]) rest
  | .text item :: .closeBracket :: rest => readNext (key, read ++ [item]) rest
  | _ => none

def readNext (pair : String × List String) : List Token → Option (List (String × List String))
  | [.closeBrace] => some [pair]
  | .comma :: rest => (readPairs rest).map (pair :: ·)
  | _ => none

end

def readObject : List Token → Option (List (String × List String))
  | [.openBrace, .closeBrace] => some []
  | .openBrace :: rest => readPairs rest
  | _ => none

/-- One list per key, the last one given, in increasing order of the keys. -/
def latest (pairs : List (String × List String)) : List (String × List String) :=
  (pairs.foldl (fun facts (key, list) => facts.set key list) Table.empty).entries

/-- The lists in a facts file, by type. -/
def decode? (text : String) : Option (List (String × List String)) :=
  ((Token.ofChars? .between text.toList).bind readObject).map latest

/-- The dependencies in a list that are not blank. -/
def named (list : List String) : List String :=
  list.filter fun d => !Text.isBlankText d

def usage? (typeName : String) (list : List String) : Option Usage :=
  if Text.isBlankText typeName ∨ named list = [] then none
  else some (Usage.ofList typeName (named list))

def usages (facts : List (String × List String)) : List Usage :=
  facts.filterMap fun (typeName, list) => usage? typeName list

def eventsOf (typeName : String) (list : List String) : List Event :=
  if Text.isBlankText typeName then [.blankType list.length]
  else
    (list.filter Text.isBlankText).map (fun _ => .blankDependency typeName)
      ++ if named list = [] then [.noDependencies typeName] else []

def events (facts : List (String × List String)) : List Event :=
  (facts.flatMap fun (typeName, list) => eventsOf typeName list)
    ++ [.usagesLoaded (usages facts).length]

def parse? (text : String) : Option (List Usage) :=
  (decode? text).map usages

end ApiGate.Facts
