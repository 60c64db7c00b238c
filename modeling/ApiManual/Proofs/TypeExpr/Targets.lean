import ApiManual.Proofs.References.FirstUse
import ApiManual.TypeExpr.Text

/-!
# Targets of types

The targets of a type are those of the references in it, at every depth.  The linked text of the
type records them from left to right, each reference before its arguments.
-/

namespace ApiManual.TypeExpr

mutual

/-- The targets of the references in a type expression, as often as they occur. -/
def targets : TypeExpr → List EntityId
  | .keyword _ => []
  | .reference _ target arguments => target.toList ++ targetsAll arguments
  | .array element => element.targets
  | .union types => targetsAll types
  | .intersection types => targetsAll types
  | .tuple types => targetsAll types
  | .literal _ => []

/-- The targets of several type expressions. -/
def targetsAll : List TypeExpr → List EntityId
  | [] => []
  | type :: rest => type.targets ++ targetsAll rest

end

mutual

theorem recorded_linked (type : TypeExpr) (used : References) :
    (type.linked used).2 = used.insertAll type.targets := by
  cases type with
  | keyword name => rfl
  | literal text => rfl
  | reference name target arguments =>
      rw [targets, References.insertAll_append]
      cases target with
      | none => exact recorded_linkedAll arguments used
      | some id => exact recorded_linkedAll arguments (used.insert id)
  | array element => exact recorded_linked element used
  | union types => exact recorded_linkedAll types used
  | intersection types => exact recorded_linkedAll types used
  | tuple types => exact recorded_linkedAll types used

theorem recorded_linkedAll (types : List TypeExpr) (used : References) :
    (linkedAll types used).2 = used.insertAll (targetsAll types) := by
  cases types with
  | nil => rfl
  | cons type rest =>
      rw [linkedAll, targetsAll, References.insertAll_append, ← recorded_linked type used]
      exact recorded_linkedAll rest (type.linked used).2

end

end ApiManual.TypeExpr
