/-!
# Places

Where paths lead, apart from what is there: `.` and empty segments stay where
they are, and `..` leads to the directory above.
-/

namespace ApiManual

/-- Where a path begins: so many directories above the working directory, or at
the root. -/
inductive Origin where
  | working (above : Nat)
  | root
  deriving DecidableEq, Repr

/-- Where a path leads: step by step down from its origin. -/
structure Place where
  origin : Origin
  steps : List (List Char)
  deriving DecidableEq, Repr

namespace Place

/-- The directory above a place. Nothing is above the root. -/
def parent : Place → Place
  | ⟨.root, []⟩ => ⟨.root, []⟩
  | ⟨.working above, []⟩ => ⟨.working (above + 1), []⟩
  | ⟨origin, first :: later⟩ => ⟨origin, (first :: later).dropLast⟩

def enter (place : Place) (segment : List Char) : Place :=
  if segment = [] ∨ segment = ['.'] then place
  else if segment = ['.', '.'] then place.parent
  else ⟨place.origin, place.steps ++ [segment]⟩

def startOf (path : List Char) : Place :=
  match path with
  | '/' :: _ => ⟨.root, []⟩
  | _ => ⟨.working 0, []⟩

def isInWorkingDirectory (place : Place) : Bool :=
  place.origin = .working 0

/-- The path of a place from its origin. -/
def path (place : Place) : String :=
  String.ofList (['/'].intercalate place.steps)

end Place

end ApiManual
