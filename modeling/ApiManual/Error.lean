import ApiManual.EntityId

/-!
# Errors

A reference that cannot be resolved is not among them: it is reported as a
diagnostic and the run goes on.
-/

namespace ApiManual

/-- A value of an option that is not allowed. -/
inductive OptionFault where
  | emptyExtension
  | separatorInExtension (extension : String)
  | blankInLanguage
  deriving DecidableEq, Repr

namespace OptionFault

def field : OptionFault → String
  | .emptyExtension | .separatorInExtension _ => "output_extension"
  | .blankInLanguage => "code_language"

def reason : OptionFault → String
  | .emptyExtension => "extension cannot be empty"
  | .separatorInExtension extension =>
      "'" ++ extension ++ "' must not contain dots or path separators"
  | .blankInLanguage => "language tag cannot contain whitespace"

end OptionFault

/-- The cause of a failure. -/
inductive Error where
  | malformedMetadata
  | malformedConfiguration
  | invalidOption (fault : OptionFault)
  | duplicateEntity (id : EntityId)
  | unknownEntity (id : EntityId)
  | unknownEntryPoint (id : EntityId)
  | unknownReference (source target : EntityId)
  | cyclicParentChain (id : EntityId)
  | cyclicMembership (id : EntityId)
  | invalidDocumentPath (id : EntityId) (fileName : String)
  deriving DecidableEq, Repr

def Error.message : Error → String
  | .malformedMetadata => "failed to parse metadata"
  | .malformedConfiguration => "failed to parse configuration"
  | .invalidOption fault =>
      "invalid configuration value for '" ++ fault.field ++ "': " ++ fault.reason
  | .duplicateEntity id => "entity '" ++ id.text ++ "' is defined more than once"
  | .unknownEntity id => "entity '" ++ id.text ++ "' is not present in the registry"
  | .unknownEntryPoint id =>
      "entry point '" ++ id.text ++ "' is not present in the registry"
  | .unknownReference source target =>
      "entity '" ++ source.text ++ "' references unknown entity '" ++ target.text ++ "'"
  | .cyclicParentChain id => "parent chain of '" ++ id.text ++ "' is cyclic"
  | .cyclicMembership id =>
      "entity '" ++ id.text ++ "' is its own member through a chain of containers"
  | .invalidDocumentPath id fileName =>
      "cannot compute a document path for '" ++ id.text ++ "' from '" ++ fileName ++ "'"

end ApiManual
