import ApiManual.Json.Reader
import ApiManual.Metadata.Entity
import ApiManual.Registry

/-!
# Metadata documents

Everything that is read from a document lies at most 127 containers deep, the
document itself being the first; unknown fields of the document and of locations
are skipped without being read.
-/

namespace ApiManual

/-- The deepest level of a metadata document whose containers can be read. -/
def Metadata.levels : Nat := 127

/-- The entities and entry points of a document. The document is an object, or
an array of both lists with the entry points first. -/
def Metadata.parts? (document : Json) :
    Option (List Entity × List EntityId) := do
  let fields ← document.record? ["entry_points", "entities"]
  let entryPoints ←
    Json.field? fields "entry_points" [] (Json.items? EntityId.ofJson?)
  let entities ← Json.required? fields "entities" (Json.items? Entity.ofJson?)
  return (entities, entryPoints)

/-- The document that lists entities and entry points. -/
def Metadata.document (entities : List Entity) (entryPoints : List EntityId) :
    Json :=
  .object
    [("entry_points", Json.ofList EntityId.toJson entryPoints),
     ("entities", Json.ofList Entity.toJson entities)]

def Entity.ofText? (text : String) : Option Entity := do
  Entity.ofJson? ((← Json.parse? text).within Metadata.levels)

def Registry.ofText (text : String) : Except Error Registry :=
  match (Json.parse? text).bind fun document =>
      Metadata.parts? (document.within Metadata.levels) with
  | none => .error .malformedMetadata
  | some (entities, entryPoints) => ofEntities entities entryPoints

end ApiManual
