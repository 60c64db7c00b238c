import ApiManual.Page.Prose
import ApiManual.Proofs.DocComment.Characters
import ApiManual.Proofs.TypeExpr.Links

/-!
# Catalogs without stray brackets

What an entity contributes to the text of a page.  When none of it holds brackets of
its own, every bracket in the text is one that rendering has put there.
-/

namespace ApiManual

open Markdown (LinksTo)
open Stripping (BracketFree)

namespace Declaration

/-- The type expressions of a declaration. -/
def typeExprs : Declaration → List TypeExpr
  | .classType _ base interfaces _ _ => base.toList ++ interfaces
  | .interfaceType _ bases _ => bases
  | .function _ _ type _ | .method _ _ type _ _ _ _ | .callSignature _ _ type
  | .property type _ _ _ | .indexSignature _ type _ | .typeAlias _ type
  | .variableBinding type _ | .parameter type _ _ _ => type.toList
  | .typeParameter constraint default => constraint.toList ++ default.toList
  | .sourceFile _ | .nameSpace _ | .constructor _ | .enumeration _ _ | .enumMember _ => []

/-- The values that a declaration gives as text. -/
def values : Declaration → List String
  | .enumMember value => value.toList
  | .parameter _ _ _ initializer => initializer.toList
  | _ => []

theorem mem_typeExprs_of_returnType {declaration : Declaration} {type : TypeExpr}
    (returned : type ∈ declaration.returnType.toList) : type ∈ declaration.typeExprs := by
  cases declaration with
  | function | method | callSignature =>
      exact returned
  | _ => cases returned

theorem mem_typeExprs_of_valueType {declaration : Declaration} {type : TypeExpr}
    (valued : type ∈ declaration.valueType.toList) : type ∈ declaration.typeExprs := by
  cases declaration with
  | property | indexSignature | typeAlias | variableBinding | parameter =>
      exact valued
  | _ => cases valued

end Declaration

/-- An entity whose names can be the text of a link, whose identifier can be linked
to, and whose texts hold no brackets. -/
structure Entity.LinkSafe (entity : Entity) : Prop where
  id : entity.id.LinkSafe
  name : LinkName entity.name
  fileName : BracketFree entity.location.fileName.toList
  doc : ∀ text ∈ entity.doc, BracketFree text.toList
  types : ∀ type ∈ entity.declaration.typeExprs, type.LinkSafe
  values : ∀ text ∈ entity.declaration.values, BracketFree text.toList

instance (entity : Entity) : Decidable entity.LinkSafe :=
  decidable_of_iff
    (entity.id.LinkSafe ∧ LinkName entity.name ∧
      BracketFree entity.location.fileName.toList ∧
      (∀ text ∈ entity.doc, BracketFree text.toList) ∧
      (∀ type ∈ entity.declaration.typeExprs, type.LinkSafe) ∧
      ∀ text ∈ entity.declaration.values, BracketFree text.toList)
    ⟨fun ⟨id, name, fileName, doc, types, values⟩ => ⟨id, name, fileName, doc, types, values⟩,
      fun safe => ⟨safe.id, safe.name, safe.fileName, safe.doc, safe.types, safe.values⟩⟩

/-- Everything a comment says is without brackets when the comment is. -/
theorem Entity.LinkSafe.docComment {entity : Entity} (safe : entity.LinkSafe) :
    entity.docComment.Says fun text => BracketFree text.toList := by
  have texts := safe.doc
  rw [Entity.docComment]
  cases doc : entity.doc with
  | none => exact DocComment.says_empty (by decide)
  | some text =>
      rw [doc] at texts
      exact DocComment.says_parse (by decide) (by decide) (texts text rfl)

/-- A parameter whose name can be the text of a link and whose type can be
linked. -/
structure Parameter.LinkSafe (parameter : Parameter) : Prop where
  name : LinkName parameter.name
  type : ∀ type ∈ parameter.type.toList, type.LinkSafe

/-- The same for a type parameter. -/
structure TypeParameter.LinkSafe (parameter : TypeParameter) : Prop where
  name : LinkName parameter.name
  constraint : ∀ type ∈ parameter.constraint.toList, type.LinkSafe
  default : ∀ type ∈ parameter.default.toList, type.LinkSafe

theorem Entity.LinkSafe.parameter? {entity : Entity} {parameter : Parameter}
    (safe : entity.LinkSafe) (found : entity.parameter? = some parameter) :
    parameter.LinkSafe := by
  have types := safe.types
  simp only [Entity.parameter?] at found
  split at found
  · next type _ _ _ declared =>
      cases found
      rw [declared] at types
      exact ⟨safe.name, types⟩
  · cases found

theorem Entity.LinkSafe.typeParameter? {entity : Entity} {parameter : TypeParameter}
    (safe : entity.LinkSafe) (found : entity.typeParameter? = some parameter) :
    parameter.LinkSafe := by
  have types := safe.types
  simp only [Entity.typeParameter?] at found
  split at found
  · next constraint default declared =>
      cases found
      rw [declared] at types
      exact ⟨safe.name, fun type member => types type (List.mem_append_left _ member),
        fun type member => types type (List.mem_append_right _ member)⟩
  · cases found

/-- A view of which nothing that a page shows holds brackets of its own. -/
structure View.LinkSafe (view : View) : Prop where
  parameters : ∀ parameter ∈ view.parameters, parameter.LinkSafe
  typeParameters : ∀ parameter ∈ view.typeParameters, parameter.LinkSafe
  returnType : ∀ type ∈ view.returnType.toList, type.LinkSafe

theorem View.linkSafe_empty : View.empty.LinkSafe :=
  ⟨List.forall_mem_nil _, List.forall_mem_nil _, List.forall_mem_nil _⟩

namespace Catalog

/-- All entities of a catalog are without stray brackets. -/
def LinkSafe (catalog : Catalog) : Prop := ∀ entity ∈ catalog.registry.entities, entity.LinkSafe

instance (catalog : Catalog) : Decidable catalog.LinkSafe :=
  List.decidableBAll Entity.LinkSafe catalog.registry.entities

variable {catalog : Catalog}

theorem LinkSafe.entity? (safe : catalog.LinkSafe) {id : EntityId} {entity : Entity}
    (found : catalog.entity? id = some entity) : entity.LinkSafe :=
  safe entity (Registry.get?_eq_some_iff.mp found).1

theorem LinkSafe.entities (safe : catalog.LinkSafe) {ids : List EntityId} :
    ∀ entity ∈ catalog.entities ids, entity.LinkSafe := by
  intro entity member
  obtain ⟨id, _, found⟩ := List.mem_filterMap.mp member
  exact safe.entity? found

theorem LinkSafe.viewOf (safe : catalog.LinkSafe) {entity : Entity}
    (entitySafe : entity.LinkSafe) : (catalog.viewOf entity).LinkSafe where
  parameters := by
    intro parameter member
    obtain ⟨listed, held, found⟩ := List.mem_filterMap.mp member
    exact (safe.entities listed held).parameter? found
  typeParameters := by
    intro parameter member
    obtain ⟨listed, held, found⟩ := List.mem_filterMap.mp member
    exact (safe.entities listed held).typeParameter? found
  returnType := fun type returned =>
    entitySafe.types type (Declaration.mem_typeExprs_of_returnType returned)

theorem LinkSafe.view (safe : catalog.LinkSafe) (id : EntityId) :
    (catalog.view id).LinkSafe := by
  cases found : catalog.entity? id with
  | none =>
      rw [view_eq_empty found]
      exact View.linkSafe_empty
  | some entity =>
      rw [view_eq_viewOf found]
      exact safe.viewOf (safe.entity? found)

end Catalog

end ApiManual
