import ApiManual.Catalog.View

/-!
# Signatures

The declaration of an entity as it stands in a block of code.
-/

namespace ApiManual.Signature

/-- A keyword that is present only when a flag is set. -/
def flag (set : Bool) (text : String) : String := if set then text else ""

def optional (introduction : String) : Option String → String
  | none => ""
  | some text => introduction ++ text

/-- Type expressions in a list, after the text that introduces it; nothing when
there are none. -/
def typeList (introduction : String) (types : List TypeExpr) : String :=
  if types.isEmpty then ""
  else introduction ++ Text.joined ", " (types.map TypeExpr.plain)

/-- The type parameters, parameters and result of a callable. -/
def callable (view : View) : String :=
  TypeParameter.listText view.typeParameters ++ "(" ++
    Parameter.listText view.parameters ++ ")" ++
    optional ": " (view.returnType.map TypeExpr.plain)

def enumMemberLine (member : Entity) : String :=
  let value := match member.declaration with
    | .enumMember value => optional " = " value
    | _ => ""
  "    " ++ member.name ++ value ++ ","

/-- The lines of the signature of an entity that is rendered under a title. -/
def lines (catalog : Catalog) (entity : Entity) (title : String) :
    List String :=
  let view := catalog.view entity.id
  let typeParameters := TypeParameter.listText view.typeParameters
  let parameters := Parameter.listText view.parameters
  match entity.declaration with
  | .sourceFile _ | .nameSpace _ => []
  | .classType _ base interfaces _ isAbstract =>
      [flag isAbstract "abstract " ++ "class " ++ title ++ typeParameters ++
        optional " extends " (base.map TypeExpr.plain) ++
        typeList " implements " interfaces]
  | .interfaceType _ bases _ =>
      ["interface " ++ title ++ typeParameters ++ typeList " extends " bases]
  | .function _ _ _ isAsync =>
      [flag isAsync "async " ++ "function " ++ title ++ callable view]
  | .method _ _ _ isStatic isAbstract isOptional isAsync =>
      [flag isStatic "static " ++ flag isAbstract "abstract " ++
        flag isAsync "async " ++ title ++ flag isOptional "?" ++
        callable view]
  | .constructor _ => ["constructor(" ++ parameters ++ ")"]
  | .callSignature _ _ _ => [callable view]
  | .property type isOptional isReadonly isStatic =>
      [flag isStatic "static " ++ flag isReadonly "readonly " ++ title ++
        flag isOptional "?" ++ ": " ++ TypeExpr.plainOrUnknown type]
  | .indexSignature _ type isReadonly =>
      [flag isReadonly "readonly " ++ "[" ++ parameters ++ "]: " ++
        TypeExpr.plainOrUnknown type]
  | .typeAlias _ type =>
      ["type " ++ title ++ typeParameters ++ " = " ++
        TypeExpr.plainOrUnknown type]
  | .enumeration members isConst =>
      (flag isConst "const " ++ "enum " ++ title ++ " \x7b") ::
        (catalog.entities members).map enumMemberLine ++ ["\x7d"]
  | .enumMember value => [title ++ optional " = " value]
  | .variableBinding type kind =>
      [kind.keyword ++ " " ++ title ++ ": " ++ TypeExpr.plainOrUnknown type]
  | .parameter type isOptional isSpread initializer =>
      [flag isSpread "..." ++ title ++ flag isOptional "?" ++ ": " ++
        TypeExpr.plainOrUnknown type ++ optional " = " initializer]
  | .typeParameter constraint default =>
      [title ++ optional " extends " (constraint.map TypeExpr.plain) ++
        optional " = " (default.map TypeExpr.plain)]

end ApiManual.Signature
