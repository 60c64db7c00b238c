import ApiManual.Kind
import ApiManual.TypeExpr

/-! # Declarations -/

namespace ApiManual

inductive VariableKind where
  | constant
  | blockScoped
  | functionScoped
  deriving DecidableEq, Repr, Inhabited

namespace VariableKind

def keyword : VariableKind → String
  | .constant => "const"
  | .blockScoped => "let"
  | .functionScoped => "var"

def all : List VariableKind := [.constant, .blockScoped, .functionScoped]

def ofKeyword? (keyword : String) : Option VariableKind :=
  all.find? (·.keyword = keyword)

@[simp] theorem ofKeyword?_keyword (kind : VariableKind) :
    ofKeyword? kind.keyword = some kind := by
  cases kind <;> decide

end VariableKind

/-- The part of an entity that depends on its kind. -/
inductive Declaration where
  | sourceFile (members : List EntityId)
  | nameSpace (members : List EntityId)
  | classType (typeParameters : List EntityId) (base : Option TypeExpr)
      (interfaces : List TypeExpr) (members : List EntityId) (isAbstract : Bool)
  | interfaceType (typeParameters : List EntityId) (bases : List TypeExpr)
      (members : List EntityId)
  | function (typeParameters parameters : List EntityId)
      (returnType : Option TypeExpr) (isAsync : Bool)
  | method (typeParameters parameters : List EntityId)
      (returnType : Option TypeExpr)
      (isStatic isAbstract isOptional isAsync : Bool)
  | constructor (parameters : List EntityId)
  | callSignature (typeParameters parameters : List EntityId)
      (returnType : Option TypeExpr)
  | property (type : Option TypeExpr) (isOptional isReadonly isStatic : Bool)
  | indexSignature (key : EntityId) (type : Option TypeExpr)
      (isReadonly : Bool)
  | typeAlias (typeParameters : List EntityId) (type : Option TypeExpr)
  | enumeration (members : List EntityId) (isConst : Bool)
  | enumMember (value : Option String)
  | variableBinding (type : Option TypeExpr) (kind : VariableKind)
  | parameter (type : Option TypeExpr) (isOptional isSpread : Bool)
      (initializer : Option String)
  | typeParameter (constraint default : Option TypeExpr)
  deriving Repr, Inhabited

namespace Declaration

def kind : Declaration → Kind
  | .sourceFile .. => .sourceFile
  | .nameSpace .. => .nameSpace
  | .classType .. => .classType
  | .interfaceType .. => .interfaceType
  | .function .. => .function
  | .method .. => .method
  | .constructor .. => .constructor
  | .callSignature .. => .callSignature
  | .property .. => .property
  | .indexSignature .. => .indexSignature
  | .typeAlias .. => .typeAlias
  | .enumeration .. => .enumeration
  | .enumMember .. => .enumMember
  | .variableBinding .. => .variableBinding
  | .parameter .. => .parameter
  | .typeParameter .. => .typeParameter

def members : Declaration → List EntityId
  | .sourceFile members | .nameSpace members | .classType _ _ _ members _
  | .interfaceType _ _ members | .enumeration members _ => members
  | _ => []

/-- The parameters of a callable declaration or of an index signature. -/
def parameters : Declaration → List EntityId
  | .function _ parameters _ _ | .method _ parameters _ _ _ _ _
  | .constructor parameters | .callSignature _ parameters _ => parameters
  | .indexSignature key _ _ => [key]
  | _ => []

def typeParameters : Declaration → List EntityId
  | .classType typeParameters _ _ _ _ | .interfaceType typeParameters _ _
  | .function typeParameters _ _ _ | .method typeParameters _ _ _ _ _ _
  | .callSignature typeParameters _ _ | .typeAlias typeParameters _ =>
      typeParameters
  | _ => []

def returnType : Declaration → Option TypeExpr
  | .function _ _ returnType _ | .method _ _ returnType _ _ _ _
  | .callSignature _ _ returnType => returnType
  | _ => none

/-- The type of the value that a declaration introduces. -/
def valueType : Declaration → Option TypeExpr
  | .property type _ _ _ | .indexSignature _ type _ | .typeAlias _ type
  | .variableBinding type _ | .parameter type _ _ _ => type
  | _ => none

/-- Every entity that a declaration is made of: its members, then its
parameters, then its type parameters. -/
def references (declaration : Declaration) : List EntityId :=
  declaration.members ++ declaration.parameters ++ declaration.typeParameters

end Declaration

end ApiManual
