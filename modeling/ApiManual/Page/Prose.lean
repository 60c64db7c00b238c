import ApiManual.Catalog.View
import ApiManual.DocComment

/-!
# The prose of an entity

The parts of a page around the signature, each of which ends with an empty line.
Text with links is made by actions on the references used so far, so that
targets are recorded in the order in which they appear.
-/

namespace ApiManual

open Markdown (Block ListItem inlineCode)

/-- The documentation comment of an entity, empty when it has none. -/
def Entity.docComment (entity : Entity) : DocComment :=
  match entity.doc with
  | none => .empty
  | some text => .parse text

namespace Prose

/-- Text that may hold links, made while their targets are recorded. -/
abbrev Linked := StateM References

def linkedType (type : TypeExpr) : Linked String := fun used => type.linked used

def linkedList (types : List TypeExpr) : Linked String := do
  return Text.joined ", " (← fun used => TypeExpr.linkedAll types used)

/-- An optional type expression with links, after the text that introduces
it. -/
def linkedOptional (introduction : String) : Option TypeExpr → Linked String
  | none => return ""
  | some type => return introduction ++ (← linkedType type)

def paragraph (text : String) : List Block := [.text text, .emptyLine]

/-- A titled list and the empty line after it; nothing when it has no item. -/
def titledList (title : String) (items : List String) : List Block :=
  if items.isEmpty then []
  else
    [.text title, .emptyLine, .list (items.map fun text => ⟨text, []⟩),
     .emptyLine]

/-! ## Before the signature -/

def mark (set : Bool) (text : String) : List Block :=
  if set then [.quote text, .emptyLine] else []

/-- Release marks, the summary and the description. -/
def introduction (doc : DocComment) : List Block :=
  let deprecation := match doc.deprecated with
    | none => []
    | some reason =>
        mark true (if reason.isEmpty then "Warning: Deprecated."
          else "Warning: Deprecated. " ++ reason)
  let summary := if doc.summary.isEmpty then [] else paragraph doc.summary
  let description := match doc.description with
    | none => []
    | some text => paragraph text
  deprecation ++ mark doc.isBeta "Warning: Beta." ++
    mark doc.isInternal "Warning: Internal." ++ summary ++ description

/-! ## After the signature -/

/-- A list of types that a declaration builds on; nothing when it is empty. -/
def heritageList (label : String) (types : List TypeExpr) :
    Linked (List Block) := do
  if types.isEmpty then return []
  else return paragraph (label ++ (← linkedList types))

/-- The types that a class or interface builds on. -/
def heritage : Declaration → Linked (List Block)
  | .classType _ base interfaces _ _ => do
      let extended ← heritageList "**Extends**: " base.toList
      let implemented ← heritageList "**Implements**: " interfaces
      return extended ++ implemented
  | .interfaceType _ bases _ => heritageList "**Extends**: " bases
  | _ => return []

def typeParameterItem (parameter : TypeParameter) : Linked String := do
  let constraint ← linkedOptional " extends " parameter.constraint
  let default ← linkedOptional " = " parameter.default
  return inlineCode parameter.name ++ constraint ++ default

def parameterItem (doc : DocComment) (parameter : Parameter) :
    Linked String := do
  let type ← match parameter.type with
    | none => pure TypeExpr.unknownText
    | some type => linkedType type
  let optional := if parameter.isOptional then " (optional)" else ""
  let description := match doc.param? parameter.name with
    | none => ""
    | some text => " - " ++ text
  return inlineCode parameter.name ++ ": " ++ type ++ optional ++ description

def returns (doc : DocComment) : Option TypeExpr → Linked (List Block)
  | none => return []
  | some type => do
      let text ← linkedType type
      let description := match doc.returns.filter (!·.isEmpty) with
        | none => ""
        | some text => " - " ++ text
      return paragraph ("**Returns**: " ++ text ++ description)

def value : Option TypeExpr → Linked (List Block)
  | none => return []
  | some type => return paragraph ("**Type**: " ++ (← linkedType type))

def examples (texts : List String) : List Block :=
  if texts.isEmpty then []
  else .text "**Examples**" :: .emptyLine ::
    texts.map fun text => .code "" (Text.lines text)

/-- Everything after the place of the signature. Source files and namespaces
have nothing there. -/
def details (catalog : Catalog) (entity : Entity) (doc : DocComment) :
    Linked (List Block) := do
  if entity.kind.isModule then return []
  let view := catalog.view entity.id
  let heritage ← heritage entity.declaration
  let typeParameters ← view.typeParameters.mapM typeParameterItem
  let parameters ← view.parameters.mapM (parameterItem doc)
  let returns ← returns doc view.returnType
  let value ← value entity.declaration.valueType
  return heritage ++ titledList "**Type parameters**" typeParameters ++
    titledList "**Parameters**" parameters ++ returns ++ value ++
    examples doc.examples ++ titledList "**See also**" doc.seeAlso

end Prose

end ApiManual
