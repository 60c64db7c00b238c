import ApiManual.Page.Signature
import ApiManual.Proofs.Catalog.LinkSafe

/-!
# Signatures hold no links

A signature shows types as plain text, so its brackets are those of tuples, arrays
and index signatures.
-/

namespace ApiManual

open Markdown (LinksTo Attaches Separates)
open Stripping (BracketFree)

variable {allowed : EntityId → Prop}

/-! ## Parts of signatures -/

namespace Signature

theorem bracketFree_flag {set : Bool} {text : String} (free : BracketFree text.toList) :
    BracketFree (flag set text).toList := by
  cases set with
  | false => exact .nil
  | true => exact free

theorem attaches_optional {introduction : String} {part : Option String}
    (separates : Separates introduction)
    (links : ∀ text ∈ part, LinksTo allowed text) :
    Attaches allowed (optional introduction part) := by
  cases part with
  | none => exact .nil
  | some text => exact (links text rfl).attaches_after separates

theorem attaches_optionalType {introduction : String} {type : Option TypeExpr}
    (separates : Separates introduction)
    (safe : ∀ given ∈ type.toList, given.LinkSafe) :
    Attaches allowed (optional introduction (type.map TypeExpr.plain)) := by
  apply attaches_optional separates
  intro text member
  obtain ⟨given, held, rfl⟩ := Option.map_eq_some_iff.mp member
  exact TypeExpr.linksTo_plain given (safe given (Option.mem_toList.mpr held))

theorem attaches_typeList {introduction : String} {types : List TypeExpr}
    (separates : Separates introduction)
    (safe : ∀ type ∈ types, type.LinkSafe) :
    Attaches allowed (typeList introduction types) := by
  simp only [typeList]
  split
  · exact .nil
  · apply (TypeExpr.linksTo_commaList _).attaches_after separates
    intro text member
    obtain ⟨type, listed, rfl⟩ := List.mem_map.mp member
    exact TypeExpr.linksTo_plain type (safe type listed)

end Signature

theorem TypeParameter.LinkSafe.linksTo_text {parameter : TypeParameter}
    (safe : parameter.LinkSafe) : LinksTo allowed parameter.text := by
  obtain ⟨id, name, constraint, default⟩ := parameter
  have named : LinksTo allowed name := .of_bracketFree safe.name.bracketFree
  have constrained : Attaches allowed
      (Signature.optional " extends " (constraint.map TypeExpr.plain)) :=
    Signature.attaches_optionalType (by decide) safe.constraint
  have defaulted : Attaches allowed (Signature.optional " = " (default.map TypeExpr.plain)) :=
    Signature.attaches_optionalType (by decide) safe.default
  have whole := (named.append constrained).append defaulted
  cases constraint with
  | none => cases default with
    | none => exact whole
    | some type => exact whole
  | some bound => cases default with
    | none => exact whole
    | some type => exact whole

theorem TypeParameter.attaches_listText {parameters : List TypeParameter}
    (safe : ∀ parameter ∈ parameters, parameter.LinkSafe) :
    Attaches allowed (listText parameters) := by
  apply TypeExpr.attaches_argumentsText (by decide) (by decide)
  intro text member
  obtain ⟨parameter, listed, rfl⟩ := List.mem_map.mp member
  exact (safe parameter listed).linksTo_text

theorem Parameter.LinkSafe.linksTo_text {parameter : Parameter} (safe : parameter.LinkSafe) :
    LinksTo allowed parameter.text := by
  apply (TypeExpr.linksTo_plainOrUnknown safe.type).after
  have spread : BracketFree (if parameter.isSpread then "..." else "").toList :=
    Signature.bracketFree_flag (by decide)
  have mark : BracketFree (if parameter.isOptional then "?" else "").toList :=
    Signature.bracketFree_flag (by decide)
  exact ((spread.concat safe.name.bracketFree).concat mark).concat (by decide)

theorem Parameter.linksTo_listText {parameters : List Parameter}
    (safe : ∀ parameter ∈ parameters, parameter.LinkSafe) :
    LinksTo allowed (listText parameters) := by
  apply TypeExpr.linksTo_commaList
  intro text member
  obtain ⟨parameter, listed, rfl⟩ := List.mem_map.mp member
  exact (safe parameter listed).linksTo_text

/-! ## Signatures of one kind -/

namespace Signature

variable {catalog : Catalog} {entity : Entity} {view : View} {title : String}
  {type : Option TypeExpr}

theorem attaches_callable (safe : view.LinkSafe) : Attaches allowed (callable view) := by
  have generic : Attaches allowed (TypeParameter.listText view.typeParameters) :=
    TypeParameter.attaches_listText safe.typeParameters
  have opened : Attaches allowed ("(" ++ Parameter.listText view.parameters) :=
    (Parameter.linksTo_listText safe.parameters).attaches_after (by decide)
  have result : Attaches allowed (optional ": " (view.returnType.map TypeExpr.plain)) :=
    attaches_optionalType (by decide) safe.returnType
  have listed := generic.append opened
  rw [← String.append_assoc] at listed
  exact (listed.append (.of_bracketFree (by decide))).append result

theorem bracketFree_enumMemberLine {member : Entity} (safe : member.LinkSafe) :
    BracketFree (enumMemberLine member).toList := by
  have values := safe.values
  have named : BracketFree ("    " ++ member.name).toList :=
    .concat (by decide) safe.name.bracketFree
  refine (named.concat ?_).concat (by decide)
  split
  · next value declared =>
      rw [declared] at values
      cases value with
      | none => exact .nil
      | some text => exact .concat (by decide) (values text (by simp [Declaration.values]))
  · exact .nil

/-- A title behind keywords. -/
theorem linksTo_headed {keywords : String} (free : BracketFree keywords.toList)
    (titleFree : BracketFree title.toList) : LinksTo allowed (keywords ++ title) :=
  (LinksTo.of_bracketFree titleFree).after free

/-- A title behind keywords, with its type parameters. -/
theorem linksTo_generic {keywords : String} (free : BracketFree keywords.toList)
    (titleFree : BracketFree title.toList) (safe : view.LinkSafe) :
    LinksTo allowed (keywords ++ title ++ TypeParameter.listText view.typeParameters) :=
  (linksTo_headed free titleFree).append (TypeParameter.attaches_listText safe.typeParameters)

/-- A name with its type behind a colon. -/
theorem linksTo_typed {name : String} (free : BracketFree name.toList)
    (types : ∀ given ∈ type.toList, given.LinkSafe) :
    LinksTo allowed (name ++ ": " ++ TypeExpr.plainOrUnknown type) :=
  (TypeExpr.linksTo_plainOrUnknown types).after (free.concat (by decide))

theorem attaches_value {value : Option String}
    (free : ∀ text ∈ value.toList, BracketFree text.toList) :
    Attaches allowed (optional " = " value) :=
  attaches_optional (by decide) fun text given =>
    .of_bracketFree (free text (Option.mem_toList.mpr given))

/-! ### Signatures without a title -/

theorem linksTo_lines_of_constructor {parameters : List EntityId} (safe : catalog.LinkSafe)
    (declared : entity.declaration = .constructor parameters) :
    ∀ line ∈ lines catalog entity title, LinksTo allowed line := by
  have listed : LinksTo allowed (Parameter.listText (catalog.view entity.id).parameters) :=
    Parameter.linksTo_listText (safe.view entity.id).parameters
  simp only [lines, declared, List.forall_mem_singleton]
  exact (listed.after (by decide)).append (.of_bracketFree (by decide))

theorem linksTo_lines_of_callSignature {typeParameters parameters : List EntityId}
    {returnType : Option TypeExpr} (safe : catalog.LinkSafe)
    (declared : entity.declaration = .callSignature typeParameters parameters returnType) :
    ∀ line ∈ lines catalog entity title, LinksTo allowed line := by
  simp only [lines, declared, List.forall_mem_singleton]
  exact (attaches_callable (safe.view entity.id)).linksTo

/-- The signature of an index is the only one with brackets of its own: they enclose
the key. -/
theorem linksTo_lines_of_indexSignature {parameter : EntityId} {isReadonly : Bool}
    (safe : catalog.LinkSafe) (entitySafe : entity.LinkSafe)
    (declared : entity.declaration = .indexSignature parameter type isReadonly) :
    ∀ line ∈ lines catalog entity title, LinksTo allowed line := by
  have types := entitySafe.types
  rw [declared] at types
  have key : LinksTo allowed (Parameter.listText (catalog.view entity.id).parameters) :=
    Parameter.linksTo_listText (safe.view entity.id).parameters
  have behind : Attaches allowed ("]" ++ (": " ++ TypeExpr.plainOrUnknown type)) :=
    ((TypeExpr.linksTo_plainOrUnknown types).attaches_after (by decide)).closing
  have whole := (key.append behind).opening.after
    (bracketFree_flag (by decide) : BracketFree (flag isReadonly "readonly ").toList)
  have mark : "]: " = "]" ++ ": " := by decide
  simp only [lines, declared, List.forall_mem_singleton]
  simp only [mark, String.append_assoc] at whole ⊢
  exact whole

section

variable (safe : catalog.LinkSafe) (titleFree : BracketFree title.toList)

include safe titleFree

/-! ### Functions and methods -/

theorem linksTo_lines_of_function {typeParameters parameters : List EntityId}
    {returnType : Option TypeExpr} {isAsync : Bool}
    (declared : entity.declaration = .function typeParameters parameters returnType isAsync) :
    ∀ line ∈ lines catalog entity title, LinksTo allowed line := by
  have keywords : BracketFree (flag isAsync "async " ++ "function ").toList :=
    (bracketFree_flag (by decide)).concat (by decide)
  simp only [lines, declared, List.forall_mem_singleton]
  exact (linksTo_headed keywords titleFree).append (attaches_callable (safe.view entity.id))

theorem linksTo_lines_of_method {typeParameters parameters : List EntityId}
    {returnType : Option TypeExpr} {isStatic isAbstract isOptional isAsync : Bool}
    (declared : entity.declaration =
      .method typeParameters parameters returnType isStatic isAbstract isOptional isAsync) :
    ∀ line ∈ lines catalog entity title, LinksTo allowed line := by
  have keywords : BracketFree (flag isStatic "static " ++ flag isAbstract "abstract " ++
      flag isAsync "async ").toList :=
    ((bracketFree_flag (by decide)).concat (bracketFree_flag (by decide))).concat
      (bracketFree_flag (by decide))
  have mark : Attaches allowed (flag isOptional "?") :=
    .of_bracketFree (bracketFree_flag (by decide))
  simp only [lines, declared, List.forall_mem_singleton]
  exact ((linksTo_headed keywords titleFree).append mark).append
    (attaches_callable (safe.view entity.id))

/-! ### Enumerations -/

theorem linksTo_lines_of_enumeration {members : List EntityId} {isConst : Bool}
    (declared : entity.declaration = .enumeration members isConst) :
    ∀ line ∈ lines catalog entity title, LinksTo allowed line := by
  have keywords : BracketFree (flag isConst "const " ++ "enum ").toList :=
    (bracketFree_flag (by decide)).concat (by decide)
  simp only [lines, declared, List.forall_mem_append, List.forall_mem_cons]
  refine ⟨⟨?_, ?_⟩, ?_, List.forall_mem_nil _⟩
  · exact .of_bracketFree ((keywords.concat titleFree).concat (by decide))
  · intro line inside
    obtain ⟨member, listed, rfl⟩ := List.mem_map.mp inside
    exact .of_bracketFree (bracketFree_enumMemberLine (safe.entities member listed))
  · exact .of_bracketFree (by decide)

end

section

variable (entitySafe : entity.LinkSafe) (titleFree : BracketFree title.toList)

include entitySafe titleFree

theorem linksTo_lines_of_enumMember {value : Option String}
    (declared : entity.declaration = .enumMember value) :
    ∀ line ∈ lines catalog entity title, LinksTo allowed line := by
  have values := entitySafe.values
  rw [declared] at values
  simp only [lines, declared, List.forall_mem_singleton]
  exact (LinksTo.of_bracketFree titleFree).append (attaches_value values)

/-! ### Names with a type -/

theorem linksTo_lines_of_property {isOptional isReadonly isStatic : Bool}
    (declared : entity.declaration = .property type isOptional isReadonly isStatic) :
    ∀ line ∈ lines catalog entity title, LinksTo allowed line := by
  have types := entitySafe.types
  rw [declared] at types
  have keywords : BracketFree (flag isStatic "static " ++ flag isReadonly "readonly ").toList :=
    (bracketFree_flag (by decide)).concat (bracketFree_flag (by decide))
  simp only [lines, declared, List.forall_mem_singleton]
  exact linksTo_typed ((keywords.concat titleFree).concat (bracketFree_flag (by decide))) types

theorem linksTo_lines_of_variableBinding {kind : VariableKind}
    (declared : entity.declaration = .variableBinding type kind) :
    ∀ line ∈ lines catalog entity title, LinksTo allowed line := by
  have types := entitySafe.types
  rw [declared] at types
  have keyword : BracketFree (kind.keyword ++ " ").toList := by
    cases kind <;> decide
  simp only [lines, declared, List.forall_mem_singleton]
  exact linksTo_typed (keyword.concat titleFree) types

theorem linksTo_lines_of_parameter {isOptional isSpread : Bool} {initializer : Option String}
    (declared : entity.declaration = .parameter type isOptional isSpread initializer) :
    ∀ line ∈ lines catalog entity title, LinksTo allowed line := by
  have types := entitySafe.types
  have values := entitySafe.values
  rw [declared] at types values
  have spread : BracketFree (flag isSpread "..." ++ title).toList :=
    (bracketFree_flag (by decide)).concat titleFree
  simp only [lines, declared, List.forall_mem_singleton]
  exact (linksTo_typed (spread.concat (bracketFree_flag (by decide))) types).append
    (attaches_value values)

/-! ### Types -/

theorem linksTo_lines_of_typeParameter {constraint default : Option TypeExpr}
    (declared : entity.declaration = .typeParameter constraint default) :
    ∀ line ∈ lines catalog entity title, LinksTo allowed line := by
  have types := entitySafe.types
  rw [declared] at types
  have constrained : Attaches allowed (optional " extends " (constraint.map TypeExpr.plain)) :=
    attaches_optionalType (by decide) fun type given =>
      types type (List.mem_append_left _ given)
  have defaulted : Attaches allowed (optional " = " (default.map TypeExpr.plain)) :=
    attaches_optionalType (by decide) fun type given =>
      types type (List.mem_append_right _ given)
  simp only [lines, declared, List.forall_mem_singleton]
  exact ((LinksTo.of_bracketFree titleFree).append constrained).append defaulted

variable (safe : catalog.LinkSafe)

include safe

theorem linksTo_lines_of_classType {typeParameters members : List EntityId}
    {base : Option TypeExpr} {interfaces : List TypeExpr} {isAbstract : Bool}
    (declared : entity.declaration =
      .classType typeParameters base interfaces members isAbstract) :
    ∀ line ∈ lines catalog entity title, LinksTo allowed line := by
  have types := entitySafe.types
  rw [declared] at types
  have keywords : BracketFree (flag isAbstract "abstract " ++ "class ").toList :=
    (bracketFree_flag (by decide)).concat (by decide)
  have extended : Attaches allowed (optional " extends " (base.map TypeExpr.plain)) :=
    attaches_optionalType (by decide) fun type given =>
      types type (List.mem_append_left _ given)
  have implemented : Attaches allowed (typeList " implements " interfaces) :=
    attaches_typeList (by decide) fun type given =>
      types type (List.mem_append_right _ given)
  simp only [lines, declared, List.forall_mem_singleton]
  exact ((linksTo_generic keywords titleFree (safe.view entity.id)).append extended).append
    implemented

theorem linksTo_lines_of_interfaceType {typeParameters members : List EntityId}
    {bases : List TypeExpr}
    (declared : entity.declaration = .interfaceType typeParameters bases members) :
    ∀ line ∈ lines catalog entity title, LinksTo allowed line := by
  have types := entitySafe.types
  rw [declared] at types
  have extended : Attaches allowed (typeList " extends " bases) :=
    attaches_typeList (by decide) types
  simp only [lines, declared, List.forall_mem_singleton]
  exact (linksTo_generic (by decide) titleFree (safe.view entity.id)).append extended

theorem linksTo_lines_of_typeAlias {typeParameters : List EntityId}
    (declared : entity.declaration = .typeAlias typeParameters type) :
    ∀ line ∈ lines catalog entity title, LinksTo allowed line := by
  have types := entitySafe.types
  rw [declared] at types
  have behind : Attaches allowed (" = " ++ TypeExpr.plainOrUnknown type) :=
    (TypeExpr.linksTo_plainOrUnknown types).attaches_after (by decide)
  have keyword : BracketFree "type ".toList := by decide
  have whole := (linksTo_generic keyword titleFree (safe.view entity.id)).append behind
  rw [← String.append_assoc] at whole
  simp only [lines, declared, List.forall_mem_singleton]
  exact whole

end

/-! ## Whole signatures -/

/-- No line of a signature holds a link. -/
theorem linksTo_lines (safe : catalog.LinkSafe) (entitySafe : entity.LinkSafe)
    (titleFree : BracketFree title.toList) :
    ∀ line ∈ lines catalog entity title, LinksTo allowed line := by
  cases declared : entity.declaration with
  | sourceFile | nameSpace => simp [lines, declared]
  | classType => exact linksTo_lines_of_classType entitySafe titleFree safe declared
  | interfaceType => exact linksTo_lines_of_interfaceType entitySafe titleFree safe declared
  | function => exact linksTo_lines_of_function safe titleFree declared
  | method => exact linksTo_lines_of_method safe titleFree declared
  | constructor => exact linksTo_lines_of_constructor safe declared
  | callSignature => exact linksTo_lines_of_callSignature safe declared
  | property => exact linksTo_lines_of_property entitySafe titleFree declared
  | indexSignature => exact linksTo_lines_of_indexSignature safe entitySafe declared
  | typeAlias => exact linksTo_lines_of_typeAlias entitySafe titleFree safe declared
  | enumeration => exact linksTo_lines_of_enumeration safe titleFree declared
  | enumMember => exact linksTo_lines_of_enumMember entitySafe titleFree declared
  | variableBinding => exact linksTo_lines_of_variableBinding entitySafe titleFree declared
  | parameter => exact linksTo_lines_of_parameter entitySafe titleFree declared
  | typeParameter => exact linksTo_lines_of_typeParameter entitySafe titleFree declared

end Signature

end ApiManual
