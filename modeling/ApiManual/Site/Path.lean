import ApiManual.Text.Lines
import ApiManual.Text.LowerCase
import ApiManual.Text.Split

/-!
# Document paths

Where documents are placed, and how one is reached from another.  The path of an
entry document derives from the name of its source file, and the path of a
member from that of its container.
-/

namespace ApiManual.DocumentPath

/-- A path with `/` for every backslash. -/
def standardize (path : String) : String :=
  String.ofList (path.toList.map fun char => if char = '\\' then '/' else char)

/-- The characters before the last `/`; none when there is no `/`. -/
def directoryOf (path : List Char) : List Char :=
  match Text.splitLast? '/' path with
  | some (directory, _) => directory
  | none => []

/-- The characters after the last `/`; all of them when there is no `/`. -/
def baseOf (path : List Char) : List Char :=
  match Text.splitLast? '/' path with
  | some (_, base) => base
  | none => path

/-- The last part of a path without its extension. A dot at its start does not
begin an extension. -/
def stemOf (path : List Char) : List Char :=
  match Text.splitLast? '.' (baseOf path) with
  | some ([], _) | none => baseOf path
  | some (stem, _) => stem

def directory (path : String) : String :=
  String.ofList (directoryOf path.toList)

/-- Whether a segment of a path leads somewhere: it is neither empty nor `.`. -/
def isStep (segment : List Char) : Bool := segment ≠ [] ∧ segment ≠ ['.']

def steps (path : List Char) : List (List Char) :=
  (Text.pieces '/' path).filter isStep

def withExtension (name extension : String) : String := name ++ "." ++ extension

/-- The path of an entry document: the stem of its source file with the
extension. A source file whose name has no last part has none. -/
def entry? (fileName extension : String) : Option String :=
  let stem := stemOf (standardize fileName).toList
  if stem = [] then none
  else some (withExtension (String.ofList stem) extension)

/-- The path of a member that gets a document of its own: in a directory named
for the document of its container, all in lower case. -/
def member (container name extension : String) : String :=
  let parts :=
    [directoryOf container.toList, stemOf container.toList,
     (withExtension name extension).toList]
  Text.toLower
    (Text.joined "/" ((parts.filter isStep).map String.ofList))

/-- How many segments two paths have in common at their start. -/
def commonSteps : (left right : List (List Char)) → Nat
  | left :: lefts, right :: rights =>
      if left = right then commonSteps lefts rights + 1 else 0
  | _, _ => 0

/-- The way from a directory to a path: up to what both have in common, then
down. -/
def stepsBetween (start goal : List (List Char)) : List (List Char) :=
  let common := commonSteps start goal
  List.replicate (start.length - common) ['.', '.'] ++ goal.drop common

/-- A link from a directory to a target. An anchor after the first `#` of the
target is carried over. -/
def relative (directory target : String) : String :=
  let (path, anchor) := match Text.splitFirst? '#' target.toList with
    | some (path, anchor) => (path, "#" ++ String.ofList anchor)
    | none => (target.toList, "")
  let way := stepsBetween (steps directory.toList) (steps path)
  Text.joined "/" (way.map String.ofList) ++ anchor

example : entry? "src/index.d.ts" "md" = some "index.d.md" := by decide

example : member "index/Baz.md" "Qux" "md" = "index/baz/qux.md" := by decide

example : relative "a/b" "a/c/d.md#e" = "../c/d.md#e" := by decide

end ApiManual.DocumentPath
