import ApiManual.Catalog
import ApiManual.TypeExpr.Text

/-!
# Views of entities

The parameters, type parameters, result and parent of an entity, looked up.
Something listed as a parameter that is declared as something else is left out.
-/

namespace ApiManual

structure Parameter where
  id : EntityId
  name : String
  type : Option TypeExpr
  isOptional : Bool
  isSpread : Bool
  initializer : Option String
  deriving Repr

structure TypeParameter where
  id : EntityId
  name : String
  constraint : Option TypeExpr
  default : Option TypeExpr
  deriving Repr

structure View where
  parameters : List Parameter
  typeParameters : List TypeParameter
  returnType : Option TypeExpr
  parent : Option EntityId
  deriving Repr

/-- What is shown of an entity that is not registered. -/
def View.empty : View where
  parameters := []
  typeParameters := []
  returnType := none
  parent := none

def Entity.parameter? (entity : Entity) : Option Parameter :=
  match entity.declaration with
  | .parameter type isOptional isSpread initializer => some {
      id := entity.id, name := entity.name
      type, isOptional, isSpread, initializer }
  | _ => none

def Entity.typeParameter? (entity : Entity) : Option TypeParameter :=
  match entity.declaration with
  | .typeParameter constraint default => some {
      id := entity.id, name := entity.name, constraint, default }
  | _ => none

namespace Catalog

def parameters (catalog : Catalog) (declaration : Declaration) :
    List Parameter :=
  (catalog.entities declaration.parameters).filterMap Entity.parameter?

def typeParameters (catalog : Catalog) (declaration : Declaration) :
    List TypeParameter :=
  (catalog.entities declaration.typeParameters).filterMap
    Entity.typeParameter?

def viewOf (catalog : Catalog) (entity : Entity) : View where
  parameters := catalog.parameters entity.declaration
  typeParameters := catalog.typeParameters entity.declaration
  returnType := entity.declaration.returnType
  parent := catalog.parent? entity.id

def view? (catalog : Catalog) (id : EntityId) : Option View :=
  (catalog.entity? id).map catalog.viewOf

/-- The view under an identifier, which need not be registered: a page can be
made of an entity that is not. -/
def view (catalog : Catalog) (id : EntityId) : View :=
  (catalog.view? id).getD .empty

theorem view_eq_viewOf {catalog : Catalog} {id : EntityId} {entity : Entity}
    (found : catalog.entity? id = some entity) :
    catalog.view id = catalog.viewOf entity := by
  rw [view, view?, found]
  rfl

theorem view_eq_empty {catalog : Catalog} {id : EntityId}
    (missing : catalog.entity? id = none) : catalog.view id = .empty := by
  rw [view, view?, missing]
  rfl

end Catalog

namespace TypeParameter

def text (parameter : TypeParameter) : String :=
  let constraint := match parameter.constraint with
    | some type => " extends " ++ type.plain
    | none => ""
  let default := match parameter.default with
    | some type => " = " ++ type.plain
    | none => ""
  parameter.name ++ constraint ++ default

/-- Type parameters between angle brackets; nothing when there are none. -/
def listText (parameters : List TypeParameter) : String :=
  TypeExpr.argumentsText "<" ">" (parameters.map text)

end TypeParameter

namespace Parameter

def text (parameter : Parameter) : String :=
  (if parameter.isSpread then "..." else "") ++ parameter.name ++
    (if parameter.isOptional then "?" else "") ++ ": " ++
    TypeExpr.plainOrUnknown parameter.type

/-- Parameters as they stand in a signature, without parentheses. -/
def listText (parameters : List Parameter) : String :=
  Text.joined ", " (parameters.map text)

end Parameter

end ApiManual
