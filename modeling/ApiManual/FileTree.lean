import ApiManual.FileTree.Place
import ApiManual.Text.Split

/-!
# File trees

The files that a run reads and writes, as a value.  Every step of a path but the
last must lead to a directory, so a file with something behind it is not found.
Writing makes the directories that are missing.
-/

namespace ApiManual

inductive Node where
  | directory
  | file (text : String)
  deriving DecidableEq, Repr

/-- The files and directories there are. Of two entries for a place the first
counts. -/
structure FileTree where
  entries : List (Place × Node)
  deriving Repr

namespace FileTree

def empty : FileTree := ⟨[]⟩

/-- What is at a place, if anything. Where paths begin there are directories. -/
def node? (tree : FileTree) (place : Place) : Option Node :=
  if place.steps = [] then some .directory else tree.entries.lookup place

def textAt? (tree : FileTree) (place : Place) : Option String :=
  match tree.node? place with
  | some (.file text) => some text
  | _ => none

def insert (tree : FileTree) (place : Place) (node : Node) : FileTree :=
  ⟨(place, node) :: tree.entries⟩

/-- Whether a segment can name something new. -/
def isName (segment : List Char) : Bool :=
  '\x00' ∉ segment ∧ (String.ofList segment).utf8ByteSize ≤ 255

/-- Whether a path is short enough to be followed. -/
def isPath (path : String) : Bool := path.utf8ByteSize ≤ 4095

/-- One step along a path, from a directory that is there. -/
def step? (tree : FileTree) (place : Place) (segment : List Char) :
    Option Place :=
  if tree.node? place = some .directory then some (place.enter segment) else none

def follow? (tree : FileTree) (path : String) : Option Place :=
  (Text.pieces '/' path.toList).foldlM tree.step? (Place.startOf path.toList)

def read? (tree : FileTree) (path : String) : Option String :=
  (tree.follow? path).bind tree.textAt?

/-- One step along a path, with a directory made where nothing is. -/
def makeStep? : FileTree × Place → List Char → Option (FileTree × Place)
  | (tree, place), segment =>
      let next := place.enter segment
      match tree.node? next with
      | some .directory => some (tree, next)
      | some (.file _) => none
      | none =>
          if isName segment then some (tree.insert next .directory, next)
          else none

/-- The tree after a text has been written to the end of a path, unless
something on the path or at its end is in the way. -/
def write? (tree : FileTree) (path text : String) : Option FileTree :=
  let segments := Text.pieces '/' path.toList
  let last := segments.getLast?.getD []
  if isPath path ∧ isName last then
    match segments.dropLast.foldlM makeStep?
        (tree, Place.startOf path.toList) with
    | none => none
    | some (tree, directory) =>
        match tree.node? (directory.enter last) with
        | some .directory => none
        | _ => some (tree.insert (directory.enter last) (.file text))
  else none

/-- Writes texts to paths, in order and up to the first that cannot be written.
Says which one that is. -/
def writeAll : FileTree → List (String × String) → FileTree × Option String
  | tree, [] => (tree, none)
  | tree, (path, text) :: later =>
      match tree.write? path text with
      | none => (tree, some path)
      | some tree => tree.writeAll later

def ofFiles (files : List (String × String)) : FileTree :=
  (empty.writeAll files).1

/-- The files in the working directory that are not in an earlier tree or had
another text there, by path. -/
def changesSince (earlier tree : FileTree) : List (String × String) :=
  let places := (tree.entries.map (·.1)).eraseDups.filter (·.isInWorkingDirectory)
  let changed := places.filterMap fun place =>
    match tree.textAt? place with
    | none => none
    | some text =>
        if earlier.textAt? place = some text then none
        else some (place.path, text)
  changed.mergeSort fun left right => left.1 ≤ right.1

/-- An entry changes one place. -/
theorem node?_insert (tree : FileTree) (place other : Place) (node : Node)
    (inside : place.steps ≠ []) :
    (tree.insert place node).node? other =
      if other = place then some node else tree.node? other := by
  by_cases equal : other = place
  · subst equal
    simp [node?, insert, inside]
  · have differs : (other == place) = false := by simpa using equal
    simp [node?, insert, equal, List.lookup_cons, differs]

example : (empty.write? "docs/a.md" "x").bind (·.read? "./docs/a.md") =
    some "x" := by decide +kernel

example : ((empty.write? "docs/a.md" "x").bind
    (·.write? "docs/a.md/b.md" "y")).isNone := by decide +kernel

end FileTree

end ApiManual
