/-!
# File trees

The files that a run of the program sees, as a function from locations to entries. A location is the
list of names on the way to it, from the directory the program runs in; the names of an absolute
path start with `/`, and a way that leaves the directory starts with `..`.

A path is followed step by step. Every step, also an empty one or a dot, starts from a directory:
`f/` and `f/.` lead nowhere if `f` is a file.
-/

namespace ApiGate

inductive Entry where
  /-- A file, with its text unless its bytes are none. -/
  | file (text : Option String)
  | directory
  deriving DecidableEq, Repr

def Entry.ofBytes (bytes : ByteArray) : Entry := .file (String.fromUTF8? bytes)

/-- The names on the way to an entry. -/
abbrev Location := List String

namespace Location

def parent (here : Location) : Location :=
  -- there is nothing above the root
  if here = ["/"] then here
  else if here.all (· = "..") then here ++ [".."]
  else here.dropLast

def advance (here : Location) (step : String) : Location :=
  if step = "" ∨ step = "." then here
  else if step = ".." then parent here
  else here ++ [step]

/-- Where the way along a path starts, and its steps. -/
def ofPath (path : String) : Location × List String :=
  match path.toList with
  | '/' :: rest => (["/"], (rest.splitOn '/').map String.ofList)
  | cs => ([], (cs.splitOn '/').map String.ofList)

/-- The locations along a way, from its start to its end. -/
def trail (here : Location) : List String → List Location
  | [] => [here]
  | step :: rest => here :: trail (advance here step) rest

end Location

/-- What is at each location. -/
structure FileTree where
  /-- The entry at a location, if there is one. -/
  lookup : Location → Option Entry

namespace FileTree

def isDirectory (tree : FileTree) (here : Location) : Bool :=
  here = [] || tree.lookup here = some .directory

/-- Follows steps as far as they start from directories. -/
def walk (tree : FileTree) (here : Location) : List String → Option Location
  | [] => some here
  | step :: rest =>
    if tree.isDirectory here then tree.walk (Location.advance here step) rest else none

def find? (tree : FileTree) (path : String) : Option Entry :=
  let (start, steps) := Location.ofPath path
  (tree.walk start steps).bind fun place =>
    if place = [] then some .directory else tree.lookup place

def isFile (tree : FileTree) (path : String) : Bool :=
  match tree.find? path with
  | some (.file _) => true
  | _ => false

def text? (tree : FileTree) (path : String) : Option String :=
  match tree.find? path with
  | some (.file text) => text
  | _ => none

/-- The tree with another entry, or none, at a location. -/
def set (tree : FileTree) (place : Location) (entry : Option Entry) : FileTree :=
  ⟨fun other => if other = place then entry else tree.lookup other⟩

/-- The tree with these entries at the ends of these paths, and with directories on the way. -/
def ofEntries (entries : List (String × Entry)) : FileTree :=
  let trails := entries.map fun (path, entry) =>
    let (start, steps) := Location.ofPath path
    (Location.trail start steps, entry)
  ⟨fun place =>
    match trails.find? fun (trail, _) => trail.getLast? = some place with
    | some (_, entry) => some entry
    | none => if trails.any fun (trail, _) => trail.contains place then some .directory else none⟩

/-- The program runs in a directory. -/
@[simp] theorem isDirectory_nil (tree : FileTree) : tree.isDirectory [] = true := by
  simp [isDirectory]

@[simp] theorem lookup_set (tree : FileTree) (place other : Location) (entry : Option Entry) :
    (tree.set place entry).lookup other = if other = place then entry else tree.lookup other := rfl

end FileTree

end ApiGate
