import ApiManual.Metadata.Entity
import ApiManual.Proofs.Metadata.TypeExpr

/-!
# Entities read back

An entity is read back from the object written for it.  The fields of its declaration stand beside
those that all entities have, so each field is looked up among fields none of which bears the key
of another.
-/

namespace ApiManual

open Json

theorem EntityId.ofJson?_toJson (id : EntityId) : ofJson? id.toJson = some id := rfl

theorem EntityId.isWritable_toJson (id : EntityId) : id.toJson.isWritable = true := rfl

namespace Location

theorem positionOf?_ofNat (position : UInt32) :
    positionOf? (ofNat position.toNat) = some position := by
  have small : position.toNat < UInt32.size := position.toNat_lt
  rw [positionOf?, natural?_ofNat]
  simp [small]

/-- A location is read back from the object written for it. -/
theorem ofJson?_toJson (location : Location) : ofJson? location.toJson = some location := by
  simp [ofJson?, toJson, record?, required?, field?, once?, positionOf?_ofNat]

theorem isWritable_toJson (location : Location) : location.toJson.isWritable = true := by
  have line := isWritable_ofNat (Nat.lt_trans location.line.toNat_lt (by decide))
  have column := isWritable_ofNat (Nat.lt_trans location.column.toNat_lt (by decide))
  simp [toJson, line, column]

end Location

namespace Declaration

/-! ## Values of fields -/

theorem items?_ids (values : List EntityId) : items? EntityId.ofJson? (ids values) = some values :=
  items?_ofList EntityId.ofJson?_toJson values

theorem nullable?_optionalType (type : Option TypeExpr) :
    nullable? (TypeExpr.ofJson? true) (optionalType type) = some type :=
  nullable?_ofOption TypeExpr.toJson (TypeExpr.ofJson?_toJson true) TypeExpr.toJson_ne_null type

theorem items?_types (values : List TypeExpr) :
    items? (TypeExpr.ofJson? true) (types values) = some values :=
  items?_ofList (TypeExpr.ofJson?_toJson true) values

theorem nullable?_optionalText (text : Option String) :
    nullable? text? (optionalText text) = some text :=
  nullable?_ofOption .string (fun _ => rfl) (by nofun) text

theorem isWritable_ids (values : List EntityId) : (ids values).isWritable = true :=
  isWritable_ofList EntityId.isWritable_toJson values

theorem isWritable_optionalType (type : Option TypeExpr) : (optionalType type).isWritable = true :=
  isWritable_ofOption TypeExpr.isWritable_toJson type

theorem isWritable_types (values : List TypeExpr) : (types values).isWritable = true :=
  isWritable_ofList TypeExpr.isWritable_toJson values

theorem isWritable_optionalText (text : Option String) : (optionalText text).isWritable = true :=
  isWritable_ofOption (fun _ => rfl) text

/-! ## Fields of a declaration -/

/-- No field of a declaration bears the key of a field that all entities have. -/
theorem keys_toFields (declaration : Declaration) :
    ∀ field ∈ declaration.toFields, field.1 ≠ "kind" ∧ field.1 ∉ Entity.ownFields := by
  cases declaration <;> simp [toFields, Entity.ownFields]

/-- A declaration is read back from its fields, whatever field stands before them. -/
theorem ofFields?_toFields (declaration : Declaration) (tag : Json) :
    ofFields? (("kind", tag) :: declaration.toFields) declaration.kind = some declaration := by
  cases declaration <;>
    simp [ofFields?, toFields, kind, idsField?, flagField?, typeField?, typesField?, textField?,
      required?, field?, once?, items?_ids, nullable?_optionalType, items?_types,
      nullable?_optionalText, EntityId.ofJson?_toJson, VariableKind.ofJson?]

theorem isWritable_toFields (declaration : Declaration) :
    declaration.toFields.all (·.2.isWritable) = true := by
  cases declaration <;>
    simp [toFields, isWritable_ids, isWritable_optionalType, isWritable_types,
      isWritable_optionalText, EntityId.toJson]

end Declaration

namespace Entity

/-- The fields that an entity writes before those of its declaration. -/
def leadingFields (entity : Entity) : List (String × Json) :=
  [("id", entity.id.toJson), ("name", .string entity.name),
   ("parent", ofOption EntityId.toJson entity.parent), ("location", entity.location.toJson),
   ("doc", ofOption .string entity.doc), ("kind", .string entity.kind.name)]

theorem toJson_eq (entity : Entity) :
    entity.toJson = .object (entity.leadingFields ++ entity.declaration.toFields) := rfl

/-- The fields gathered from an entity are its kind and those of its declaration. -/
theorem gathered_fields (entity : Entity) :
    (entity.leadingFields ++ entity.declaration.toFields).filter
        (fun field => field.1 ∉ ownFields) =
      ("kind", .string entity.kind.name) :: entity.declaration.toFields := by
  have leading : entity.leadingFields.filter (fun field => field.1 ∉ ownFields) =
      [("kind", .string entity.kind.name)] := by
    simp [leadingFields, ownFields]
  have declared : entity.declaration.toFields.filter (fun field => field.1 ∉ ownFields) =
      entity.declaration.toFields := by
    rw [List.filter_eq_self]
    intro field member
    simpa using (entity.declaration.keys_toFields field member).2
  rw [List.filter_append, leading, declared]
  rfl

/-- An entity is read back from the object written for it. -/
theorem ofJson?_toJson (entity : Entity) : ofJson? entity.toJson = some entity := by
  have readable : entity.declaration.toFields.all (·.2.isReadable) = true := by
    rw [List.all_eq_true]
    intro field member
    exact isReadable_of_isWritable field.2
      (List.all_eq_true.mp entity.declaration.isWritable_toFields field member)
  have tag : once? "kind" (("kind", string entity.kind.name) :: entity.declaration.toFields) =
      some (some (string entity.kind.name)) :=
    once?_cons fun field member => (entity.declaration.keys_toFields field member).1
  have own {key : String} (isOwn : key ∈ ownFields) :
      once? key (entity.leadingFields ++ entity.declaration.toFields) =
        once? key entity.leadingFields :=
    once?_append fun field member same =>
      (entity.declaration.keys_toFields field member).2 (same ▸ isOwn)
  have parent : nullable? EntityId.ofJson? (ofOption EntityId.toJson entity.parent) =
      some entity.parent :=
    nullable?_ofOption EntityId.toJson EntityId.ofJson?_toJson (by nofun) entity.parent
  have doc : nullable? text? (ofOption .string entity.doc) = some entity.doc :=
    Declaration.nullable?_optionalText entity.doc
  rw [toJson_eq, ofJson?]
  simp only [gathered_fields]
  rw [if_pos (by simpa [isReadable] using readable)]
  simp only [required?, field?]
  rw [tag, own (by decide), own (by decide), own (by decide), own (by decide), own (by decide)]
  simp [leadingFields, once?, Kind.ofTag?, EntityId.ofJson?_toJson, parent, doc,
    Location.ofJson?_toJson, kind, Declaration.ofFields?_toFields]

theorem isWritable_toJson (entity : Entity) : entity.toJson.isWritable = true := by
  have parent : (ofOption EntityId.toJson entity.parent).isWritable = true :=
    isWritable_ofOption EntityId.isWritable_toJson entity.parent
  have doc : (ofOption .string entity.doc).isWritable = true :=
    Declaration.isWritable_optionalText entity.doc
  have declared := entity.declaration.isWritable_toFields
  rw [toJson_eq, isWritable_object, List.all_append, declared, Bool.and_true]
  simp [leadingFields, EntityId.toJson, parent, doc, entity.location.isWritable_toJson]

end Entity

end ApiManual
