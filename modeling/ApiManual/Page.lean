import ApiManual.Entity
import ApiManual.References

/-!
# Pages

What rendering an entity yields.  A page does not know where it will be placed.
-/

namespace ApiManual

/-- A heading and those below it. The anchor of a heading derives from its
title; the identifier says which entity it documents. -/
structure Heading where
  title : String
  id : EntityId
  members : List Heading
  deriving Repr, Inhabited

structure Page where
  id : EntityId
  content : List String
  headings : List Heading
  used : References
  members : List Page
  deriving Inhabited

/-- The name under which an entity is rendered, which differs from its own when
it is exported under another one. -/
structure Identity where
  title : String
  id : EntityId
  deriving DecidableEq, Repr

def Identity.of (entity : Entity) : Identity := ⟨entity.name, entity.id⟩

end ApiManual
