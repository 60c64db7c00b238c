import ApiManual.EntityId

/-!
# Type expressions

A reference names a type and may say which entity it is; everything without
structure of its own is kept as literal text.
-/

namespace ApiManual

inductive TypeExpr where
  | keyword (name : String)
  | reference (name : String) (target : Option EntityId) (arguments : List TypeExpr)
  | array (element : TypeExpr)
  | union (types : List TypeExpr)
  | intersection (types : List TypeExpr)
  | tuple (types : List TypeExpr)
  | literal (text : String)
  deriving Repr, Inhabited

end ApiManual
