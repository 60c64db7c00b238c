/-! # Kinds of entities -/

namespace ApiManual

inductive Kind where
  | sourceFile
  | nameSpace
  | classType
  | interfaceType
  | function
  | method
  | constructor
  | callSignature
  | property
  | indexSignature
  | typeAlias
  | enumeration
  | enumMember
  | variableBinding
  | parameter
  | typeParameter
  deriving DecidableEq, Repr, Inhabited

namespace Kind

/-- Every kind, in the order that numbers them. -/
def all : List Kind :=
  [.sourceFile, .nameSpace, .classType, .interfaceType, .function, .method, .constructor,
   .callSignature, .property, .indexSignature, .typeAlias, .enumeration, .enumMember,
   .variableBinding, .parameter, .typeParameter]

/-- The name of a kind in metadata. -/
def name : Kind → String
  | .sourceFile => "source_file"
  | .nameSpace => "namespace"
  | .classType => "class"
  | .interfaceType => "interface"
  | .function => "function"
  | .method => "method"
  | .constructor => "constructor"
  | .callSignature => "call_signature"
  | .property => "property"
  | .indexSignature => "index"
  | .typeAlias => "type_alias"
  | .enumeration => "enum"
  | .enumMember => "enum_member"
  | .variableBinding => "variable"
  | .parameter => "parameter"
  | .typeParameter => "type_parameter"

/-- The name of a kind for readers. -/
def displayName : Kind → String
  | .sourceFile => "Source file"
  | .nameSpace => "Namespace"
  | .classType => "Class"
  | .interfaceType => "Interface"
  | .function => "Function"
  | .method => "Method"
  | .constructor => "Constructor"
  | .callSignature => "Call signature"
  | .property => "Property"
  | .indexSignature => "Index signature"
  | .typeAlias => "Type alias"
  | .enumeration => "Enum"
  | .enumMember => "Enum member"
  | .variableBinding => "Variable"
  | .parameter => "Parameter"
  | .typeParameter => "Type parameter"

def ofName? (name : String) : Option Kind := all.find? (·.name = name)

/-- Whether members of this kind get a document of their own, apart from that of
the source file or namespace that lists them. -/
def hasOwnDocument : Kind → Bool
  | .classType | .interfaceType | .nameSpace => true
  | _ => false

/-- Whether entities of this kind only gather others and declare nothing
themselves. -/
def isModule : Kind → Bool
  | .sourceFile | .nameSpace => true
  | _ => false

@[simp] theorem ofName?_name (kind : Kind) : ofName? kind.name = some kind := by
  cases kind <;> decide

end Kind

end ApiManual
