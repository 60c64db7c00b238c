import ApiManual.Declaration
import ApiManual.Location

/-! # Entities -/

namespace ApiManual

/-- An entity. The parent is the container given explicitly; it need not be
registered. -/
structure Entity where
  id : EntityId
  name : String
  parent : Option EntityId
  location : Location
  doc : Option String
  declaration : Declaration
  deriving Repr

namespace Entity

def kind (entity : Entity) : Kind := entity.declaration.kind

def members (entity : Entity) : List EntityId := entity.declaration.members

end Entity

end ApiManual
