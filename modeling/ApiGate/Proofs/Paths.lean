import ApiGate.Program

/-!
# Where paths lead

Whether there is a file at a path, and which text it has, depends on two things only: on which of
the locations on its way are directories, and on what is at its goal. Two trees that are alike in
both have the same file there, however much they differ otherwise (`AlikeAlong.text?`).

That is what a change of one file can be measured by. A file that is added, removed or changed at a
place is no directory before and none after, so no other path is led elsewhere by it. Adding it may
take new directories, though, and a path that goes through one of these and leaves it again by `..`
leads somewhere only then; a change spares the paths that go through none (`Changes`).
-/

namespace ApiGate

namespace Location

/-- The locations that a path goes through before its goal. -/
def way (path : String) : List Location :=
  (trail (ofPath path).1 (ofPath path).2).dropLast

/-- Where a path ends, if it leads there at all. -/
def goal (path : String) : Location :=
  (ofPath path).2.foldl advance (ofPath path).1

theorem trail_ne_nil (here : Location) (steps : List String) : trail here steps ≠ [] := by
  cases steps with
  | nil => exact List.cons_ne_nil here []
  | cons step rest => exact List.cons_ne_nil here _

theorem dropLast_trail_cons (here : Location) (step : String) (rest : List String) :
    (trail here (step :: rest)).dropLast = here :: (trail (advance here step) rest).dropLast :=
  List.dropLast_cons_of_ne_nil (trail_ne_nil _ rest)

/-! ### The last step of a path -/

theorem steps_of_suffix {name cs : List Char} (hname : '/' ∉ name)
    (h : '/' :: name <:+ '/' :: cs) :
    ∃ steps, (cs.splitOn '/').map String.ofList = steps ++ [String.ofList name] := by
  rcases List.suffix_cons_iff.1 h with heq | ⟨before, hcs⟩
  · cases heq
    exact ⟨[], by rw [List.splitOn_eq_singleton hname, List.map_singleton, List.nil_append]⟩
  · refine ⟨(before.splitOn '/').map String.ofList, ?_⟩
    rw [← hcs, List.splitOn_append_cons_self, List.splitOn_eq_singleton hname, List.map_append,
      List.map_singleton]

theorem ofPath_of_suffix {path : String} {name : List Char} (hname : '/' ∉ name)
    (h : '/' :: name <:+ '/' :: path.toList) :
    ∃ steps, (ofPath path).2 = steps ++ [String.ofList name] := by
  unfold ofPath
  split
  · rename_i rest hrest
    -- the slash that the path starts with is none before the name
    have hsuffix : '/' :: name <:+ '/' :: rest := by
      rw [hrest] at h
      refine (List.suffix_cons_iff.1 h).resolve_left fun heq => hname ?_
      rw [(List.cons.inj heq).2]
      exact List.mem_cons_self
    exact steps_of_suffix hname hsuffix
  · exact steps_of_suffix hname h

theorem suffix_joinPath (directory name : String) :
    '/' :: name.toList <:+ '/' :: (joinPath directory name).toList := by
  unfold joinPath
  split
  · exact List.suffix_rfl
  · split
    · rename_i hlast
      obtain ⟨before, hbefore⟩ := List.getLast?_eq_some_iff.1 hlast
      refine ⟨'/' :: before, ?_⟩
      rw [String.toList_append, hbefore, List.cons_append, List.append_assoc]
      rfl
    · refine ⟨'/' :: directory.toList, ?_⟩
      rw [String.toList_append, String.toList_append, List.cons_append, List.append_assoc]
      rfl

/-- What a path to a name in a directory leads to has that name. -/
theorem getLast?_goal_joinPath (directory : String) {name : String} (hslash : '/' ∉ name.toList)
    (hname : ∀ here, advance here name = here ++ [name]) :
    (goal (joinPath directory name)).getLast? = some name := by
  obtain ⟨steps, hsteps⟩ := ofPath_of_suffix hslash (suffix_joinPath directory name)
  unfold goal
  rw [hsteps, String.ofList_toList, List.foldl_append, List.foldl_cons, List.foldl_nil, hname,
    List.getLast?_concat]

end Location

namespace FileTree

/-- The text of the file at a location, if there is a file. -/
def file? (tree : FileTree) (place : Location) : Option (Option String) :=
  match tree.lookup place with
  | some (.file text) => some text
  | _ => none

theorem file?_eq_some_iff {tree : FileTree} {place : Location} {text : Option String} :
    tree.file? place = some text ↔ tree.lookup place = some (.file text) := by
  unfold file?
  split
  · rename_i htext
    rw [htext, Option.some.injEq, Option.some.injEq, Entry.file.injEq]
  · rename_i hno
    exact ⟨fun h => (Option.some_ne_none _ h.symm).elim, fun h => (hno text h).elim⟩

/-- A way leads to its end iff it starts from directories at every step. -/
theorem walk_eq_some_iff {tree : FileTree} {here place : Location} {steps : List String} :
    tree.walk here steps = some place ↔
      (∀ other ∈ (Location.trail here steps).dropLast, tree.isDirectory other = true) ∧
        steps.foldl Location.advance here = place := by
  induction steps generalizing here with
  | nil => simp [walk, Location.trail]
  | cons step rest ih =>
    rw [Location.dropLast_trail_cons, List.forall_mem_cons, List.foldl_cons, and_assoc, ← ih, walk]
    split
    · rename_i h
      simp [h]
    · rename_i h
      simp [h]

/-- There is a file at a path iff the way goes through directories and there is one at its goal. -/
theorem find?_eq_file_iff {tree : FileTree} {path : String} {text : Option String} :
    tree.find? path = some (.file text) ↔
      (∀ here ∈ Location.way path, tree.isDirectory here = true) ∧
        Location.goal path ≠ [] ∧ tree.file? (Location.goal path) = some text := by
  have hfind : tree.find? path = some (.file text) ↔
      ∃ place, tree.walk (Location.ofPath path).1 (Location.ofPath path).2 = some place ∧
        place ≠ [] ∧ tree.file? place = some text := by
    unfold find?
    rw [Option.bind_eq_some_iff]
    refine exists_congr fun place => and_congr_right fun _ => ?_
    rw [file?_eq_some_iff]
    by_cases hplace : place = []
    · simp [hplace]
    · simp [hplace]
  simp only [hfind, walk_eq_some_iff]
  constructor
  · intro h
    obtain ⟨place, ⟨hway, hgoal⟩, hplace⟩ := h
    subst hgoal
    exact ⟨hway, hplace⟩
  · intro h
    exact ⟨Location.goal path, ⟨h.1, rfl⟩, h.2⟩

theorem isFile_eq_true_iff {tree : FileTree} {path : String} :
    tree.isFile path = true ↔ ∃ text, tree.find? path = some (.file text) := by
  unfold isFile
  split
  · rename_i text htext
    exact ⟨fun _ => ⟨text, htext⟩, fun _ => rfl⟩
  · rename_i hno
    exact ⟨fun h => absurd h Bool.false_ne_true, fun ⟨text, htext⟩ => (hno text htext).elim⟩

theorem text?_eq_some_iff {tree : FileTree} {path text : String} :
    tree.text? path = some text ↔ tree.find? path = some (.file (some text)) := by
  unfold text?
  split
  · rename_i htext
    rw [htext, Option.some.injEq, Entry.file.injEq]
  · rename_i hno
    exact ⟨fun h => (Option.some_ne_none _ h.symm).elim, fun h => (hno _ h).elim⟩

/-- Along a path two trees have the same directories, and at its goal the same file or none. -/
structure AlikeAlong (path : String) (files files' : FileTree) : Prop where
  way (here : Location) : here ∈ Location.way path →
    files'.isDirectory here = files.isDirectory here
  goal : files'.file? (Location.goal path) = files.file? (Location.goal path)

namespace AlikeAlong

variable {path : String} {files files' : FileTree}

theorem find? (h : AlikeAlong path files files') (text : Option String) :
    files'.find? path = some (.file text) ↔ files.find? path = some (.file text) := by
  rw [find?_eq_file_iff, find?_eq_file_iff, h.goal]
  have hway : (∀ here ∈ Location.way path, files'.isDirectory here = true) ↔
      ∀ here ∈ Location.way path, files.isDirectory here = true :=
    forall₂_congr fun here hmem => by rw [h.way here hmem]
  rw [hway]

theorem isFile (h : AlikeAlong path files files') : files'.isFile path = files.isFile path := by
  rw [Bool.eq_iff_iff, isFile_eq_true_iff, isFile_eq_true_iff]
  simp only [h.find?]

theorem text? (h : AlikeAlong path files files') : files'.text? path = files.text? path := by
  refine Option.ext fun text => ?_
  rw [text?_eq_some_iff, text?_eq_some_iff, h.find?]

end AlikeAlong

/-- Two trees differ in a file at `place`: each has a file there or nothing. Elsewhere they are the
same, but that directories may be in only one of them, such as those that the file is in; none of
the paths `spared` goes through such a directory. -/
structure Changes (place : Location) (spared : List String) (files files' : FileTree) : Prop where
  before : files.lookup place ≠ some .directory
  after : files'.lookup place ≠ some .directory
  elsewhere (other : Location) : other ≠ place →
    files'.lookup other = files.lookup other ∨
      (files.file? other = none ∧ files'.file? other = none ∧
        ∀ path ∈ spared, other ∉ Location.way path)

/-- A file that is written over another, put where there was nothing, or taken away. -/
theorem changes_set {files : FileTree} {place : Location} {entry : Option Entry}
    (hbefore : files.lookup place ≠ some .directory) (hafter : entry ≠ some .directory)
    (spared : List String) : files.Changes place spared (files.set place entry) where
  before := hbefore
  after := by simpa using hafter
  elsewhere := fun other hother => Or.inl (by simp [hother])

/-- A path that is spared is not led elsewhere by a change, unless it ends right there. No more is
one that does not go through any directory but the first. -/
theorem Changes.alikeAlong {place : Location} {spared : List String} {files files' : FileTree}
    (h : files.Changes place spared files') {path : String} (hgoal : Location.goal path ≠ place)
    (hway : path ∈ spared ∨ ∀ here ∈ Location.way path, here = []) :
    AlikeAlong path files files' where
  way here hhere := by
    by_cases hnil : here = []
    · simp [hnil]
    · have hspared : path ∈ spared := hway.resolve_right fun hall => hnil (hall here hhere)
      have hlookup : files'.lookup here = some .directory ↔
          files.lookup here = some .directory := by
        by_cases hplace : here = place
        · subst hplace
          exact ⟨fun hd => absurd hd h.after, fun hd => absurd hd h.before⟩
        · rcases h.elsewhere here hplace with hsame | ⟨_, _, hfar⟩
          · rw [hsame]
          · exact absurd hhere (hfar path hspared)
      simp [isDirectory, hlookup]
  goal := by
    rcases h.elsewhere _ hgoal with hsame | ⟨hnone, hnone', _⟩
    · unfold file?
      rw [hsame]
    · rw [hnone, hnone']

end FileTree

end ApiGate
