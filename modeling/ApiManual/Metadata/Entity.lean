import ApiManual.Entity
import ApiManual.Metadata.TypeExpr

/-!
# Entities in metadata

An entity is one object: the fields that all entities have, a key `kind`, and
the fields of that kind side by side.  Fields of other kinds and unknown fields
must be readable, and a field that is known to the entity may occur only once.
-/

namespace ApiManual

def EntityId.ofJson? (value : Json) : Option EntityId :=
  value.text?.map EntityId.mk

def EntityId.toJson (id : EntityId) : Json := .string id.text

namespace Location

/-- A line or column: a number below `2 ^ 32`. -/
def positionOf? (value : Json) : Option UInt32 := do
  let position ← value.natural?
  if position < UInt32.size then some (UInt32.ofNat position) else none

def ofJson? (value : Json) : Option Location := do
  let fields ← value.record? ["file_name", "line", "column"]
  return {
    fileName := ← Json.required? fields "file_name" Json.text?
    line := ← Json.field? fields "line" 0 positionOf?
    column := ← Json.field? fields "column" 0 positionOf? }

def toJson (location : Location) : Json :=
  .object
    [("file_name", .string location.fileName),
     ("line", Json.ofNat location.line.toNat),
     ("column", Json.ofNat location.column.toNat)]

end Location

/-- The kind of variable that a value names: its keyword, alone or as the only
key of an object that holds nothing. -/
def VariableKind.ofJson? : Json → Option VariableKind
  | .string keyword => ofKeyword? keyword
  | .object [(keyword, .null)] => ofKeyword? keyword
  | .object [(keyword, .object [])] => ofKeyword? keyword
  | _ => none

namespace Kind

/-- The kind that the tag of an entity names: by its name, or by its position in
the list of all kinds. -/
def ofTag? : Json → Option Kind
  | .string name => ofName? name
  | tag => tag.natural?.bind (all[·]?)

/-- The kind that a value on its own names: by its name, alone or as the only key
of an object that holds `null`. -/
def ofJson? : Json → Option Kind
  | .string name => ofName? name
  | .object [(name, .null)] => ofName? name
  | _ => none

end Kind

namespace Declaration

def idsField? (fields : List (String × Json)) (key : String) :
    Option (List EntityId) :=
  Json.field? fields key [] (Json.items? EntityId.ofJson?)

def flagField? (fields : List (String × Json)) (key : String) : Option Bool :=
  Json.field? fields key false Json.flag?

def typeField? (fields : List (String × Json)) (key : String) :
    Option (Option TypeExpr) :=
  Json.field? fields key none (Json.nullable? (TypeExpr.ofJson? true))

def typesField? (fields : List (String × Json)) (key : String) :
    Option (List TypeExpr) :=
  Json.field? fields key [] (Json.items? (TypeExpr.ofJson? true))

def textField? (fields : List (String × Json)) (key : String) :
    Option (Option String) :=
  Json.field? fields key none (Json.nullable? Json.text?)

def ofFields? (fields : List (String × Json)) : Kind → Option Declaration
  | .sourceFile => return .sourceFile (← idsField? fields "members")
  | .nameSpace => return .nameSpace (← idsField? fields "members")
  | .classType =>
      return .classType (← idsField? fields "type_parameters")
        (← typeField? fields "extends") (← typesField? fields "implements")
        (← idsField? fields "members") (← flagField? fields "is_abstract")
  | .interfaceType =>
      return .interfaceType (← idsField? fields "type_parameters")
        (← typesField? fields "extends") (← idsField? fields "members")
  | .function =>
      return .function (← idsField? fields "type_parameters")
        (← idsField? fields "parameters") (← typeField? fields "return_type")
        (← flagField? fields "is_async")
  | .method =>
      return .method (← idsField? fields "type_parameters")
        (← idsField? fields "parameters") (← typeField? fields "return_type")
        (← flagField? fields "is_static") (← flagField? fields "is_abstract")
        (← flagField? fields "is_optional") (← flagField? fields "is_async")
  | .constructor => return .constructor (← idsField? fields "parameters")
  | .callSignature =>
      return .callSignature (← idsField? fields "type_parameters")
        (← idsField? fields "parameters") (← typeField? fields "return_type")
  | .property =>
      return .property (← typeField? fields "type")
        (← flagField? fields "is_optional") (← flagField? fields "is_readonly")
        (← flagField? fields "is_static")
  | .indexSignature =>
      return .indexSignature
        (← Json.required? fields "parameter" EntityId.ofJson?)
        (← typeField? fields "type") (← flagField? fields "is_readonly")
  | .typeAlias =>
      return .typeAlias (← idsField? fields "type_parameters")
        (← typeField? fields "type")
  | .enumeration =>
      return .enumeration (← idsField? fields "members")
        (← flagField? fields "is_const")
  | .enumMember => return .enumMember (← textField? fields "value")
  | .variableBinding =>
      return .variableBinding (← typeField? fields "type")
        (← Json.field? fields "variable_kind" .constant VariableKind.ofJson?)
  | .parameter =>
      return .parameter (← typeField? fields "type")
        (← flagField? fields "is_optional") (← flagField? fields "is_spread")
        (← textField? fields "initializer")
  | .typeParameter =>
      return .typeParameter (← typeField? fields "constraint")
        (← typeField? fields "default")

def ids (values : List EntityId) : Json := Json.ofList EntityId.toJson values

def optionalType (type : Option TypeExpr) : Json :=
  Json.ofOption TypeExpr.toJson type

def types (values : List TypeExpr) : Json := Json.ofList TypeExpr.toJson values

def optionalText (text : Option String) : Json := Json.ofOption .string text

/-- The fields of a declaration, without those that all entities have. -/
def toFields : Declaration → List (String × Json)
  | .sourceFile members | .nameSpace members => [("members", ids members)]
  | .classType typeParameters base interfaces members isAbstract =>
      [("type_parameters", ids typeParameters), ("extends", optionalType base),
       ("implements", types interfaces), ("members", ids members),
       ("is_abstract", .bool isAbstract)]
  | .interfaceType typeParameters bases members =>
      [("type_parameters", ids typeParameters), ("extends", types bases),
       ("members", ids members)]
  | .function typeParameters parameters returnType isAsync =>
      [("type_parameters", ids typeParameters), ("parameters", ids parameters),
       ("return_type", optionalType returnType), ("is_async", .bool isAsync)]
  | .method typeParameters parameters returnType isStatic isAbstract isOptional
      isAsync =>
      [("type_parameters", ids typeParameters), ("parameters", ids parameters),
       ("return_type", optionalType returnType), ("is_static", .bool isStatic),
       ("is_abstract", .bool isAbstract), ("is_optional", .bool isOptional),
       ("is_async", .bool isAsync)]
  | .constructor parameters => [("parameters", ids parameters)]
  | .callSignature typeParameters parameters returnType =>
      [("type_parameters", ids typeParameters), ("parameters", ids parameters),
       ("return_type", optionalType returnType)]
  | .property type isOptional isReadonly isStatic =>
      [("type", optionalType type), ("is_optional", .bool isOptional),
       ("is_readonly", .bool isReadonly), ("is_static", .bool isStatic)]
  | .indexSignature key type isReadonly =>
      [("parameter", key.toJson), ("type", optionalType type),
       ("is_readonly", .bool isReadonly)]
  | .typeAlias typeParameters type =>
      [("type_parameters", ids typeParameters), ("type", optionalType type)]
  | .enumeration members isConst =>
      [("members", ids members), ("is_const", .bool isConst)]
  | .enumMember value => [("value", optionalText value)]
  | .variableBinding type kind =>
      [("type", optionalType type), ("variable_kind", .string kind.keyword)]
  | .parameter type isOptional isSpread initializer =>
      [("type", optionalType type), ("is_optional", .bool isOptional),
       ("is_spread", .bool isSpread), ("initializer", optionalText initializer)]
  | .typeParameter constraint default =>
      [("constraint", optionalType constraint), ("default", optionalType default)]

end Declaration

namespace Entity

/-- The fields that all entities have. Each is read where it stands; all other
fields of an entity are gathered first, so that no part of them may be
unreadable. -/
def ownFields : List String := ["id", "name", "parent", "location", "doc"]

def ofJson? : Json → Option Entity
  | .object fields => do
      let gathered := fields.filter fun field => field.1 ∉ ownFields
      if gathered.all (·.2.isReadable) then
        let kind ← Json.required? gathered "kind" Kind.ofTag?
        return {
          id := ← Json.required? fields "id" EntityId.ofJson?
          name := ← Json.required? fields "name" Json.text?
          parent := ← Json.field? fields "parent" none
            (Json.nullable? EntityId.ofJson?)
          location := ← Json.field? fields "location" .unknown Location.ofJson?
          doc := ← Json.field? fields "doc" none (Json.nullable? Json.text?)
          declaration := ← Declaration.ofFields? gathered kind }
      else none
  | _ => none

def toJson (entity : Entity) : Json :=
  .object
    ([("id", entity.id.toJson), ("name", .string entity.name),
      ("parent", Json.ofOption EntityId.toJson entity.parent),
      ("location", entity.location.toJson),
      ("doc", Json.ofOption .string entity.doc),
      ("kind", .string entity.kind.name)] ++ entity.declaration.toFields)

end Entity

end ApiManual
