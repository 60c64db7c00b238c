/-! # Source locations -/

namespace ApiManual

structure Location where
  fileName : String
  line : UInt32
  column : UInt32
  deriving DecidableEq, Repr

namespace Location

/-- The location of an entity that gives none. -/
def unknown : Location := ⟨"", 0, 0⟩

/-- A location in the form `file:line:column`. -/
def text (location : Location) : String :=
  location.fileName ++ ":" ++ location.line.toNat.repr ++ ":" ++ location.column.toNat.repr

end Location

end ApiManual
