import ApiManual.Metadata.Document
import ApiManual.Proofs.Metadata.Entity
import ApiManual.Proofs.Registry.Loading

/-!
# Documents read back

A registry is rebuilt from its own entities and entry points, and these are what is read from a
document that lists them.  Together with both layouts of the document this closes the circle: a
registry whose document nests within the levels survives being written and read.
-/

namespace ApiManual

open Json

namespace Metadata

/-- A document lists entities and entry points when it has both lists as written, under keys that
occur once. -/
def Lists (document : Json) (entities : List Entity) (entryPoints : List EntityId) : Prop :=
  ∃ fields, document = .object fields ∧
    once? "entities" fields = some (some (ofList Entity.toJson entities)) ∧
    once? "entry_points" fields = some (some (ofList EntityId.toJson entryPoints))

variable {entities : List Entity} {entryPoints : List EntityId}

theorem lists_document (entities : List Entity) (entryPoints : List EntityId) :
    Lists (document entities entryPoints) entities entryPoints :=
  ⟨_, rfl, rfl, rfl⟩

/-- What a document lists is read from it. -/
theorem parts?_of_lists {document : Json} (lists : Lists document entities entryPoints) :
    parts? document = some (entities, entryPoints) := by
  obtain ⟨fields, rfl, listed, marked⟩ := lists
  simp [parts?, record?, field?, required?, listed, marked,
    items?_ofList EntityId.ofJson?_toJson, items?_ofList Entity.ofJson?_toJson]

theorem isWritable_document (entities : List Entity) (entryPoints : List EntityId) :
    (document entities entryPoints).isWritable = true := by
  simp [document, isWritable_ofList Entity.isWritable_toJson,
    isWritable_ofList EntityId.isWritable_toJson]

end Metadata

namespace Registry

/-- A document that nests within the levels gives the registry of what it lists, and the document
written for a registry is read back from both of its layouts. -/
theorem ofText_document {entities : List Entity} {entryPoints : List EntityId}
    (distinct : (entities.map (·.id)).Nodup)
    (registered : ∀ id ∈ entryPoints, id ∈ entities.map (·.id)) :
    (∀ text document, Json.parse? text = some document →
      Metadata.Lists document entities entryPoints → document.depth ≤ Metadata.levels →
        ofText text = .ok ⟨entities, entryPoints, distinct, registered⟩) ∧
    ((Metadata.document entities entryPoints).depth ≤ Metadata.levels →
      ofText (Metadata.document entities entryPoints).compact =
          .ok ⟨entities, entryPoints, distinct, registered⟩ ∧
        ofText (Metadata.document entities entryPoints).pretty =
          .ok ⟨entities, entryPoints, distinct, registered⟩) := by
  have read {text : String} {document : Json} (parsed : Json.parse? text = some document)
      (lists : Metadata.Lists document entities entryPoints)
      (nests : document.depth ≤ Metadata.levels) :
      ofText text = .ok ⟨entities, entryPoints, distinct, registered⟩ := by
    rw [ofText, parsed, Option.bind_some, within_of_depth_le document nests,
      Metadata.parts?_of_lists lists]
    exact ofEntities_eq_ok distinct registered
  have writable := Metadata.isWritable_document entities entryPoints
  have lists := Metadata.lists_document entities entryPoints
  exact ⟨fun _ _ => read, fun nests =>
    ⟨read (parse?_compact writable) lists nests, read (parse?_pretty writable) lists nests⟩⟩

/-- A file with a class and its property, with texts that need escapes, the greatest position and a
type that nests. -/
def escapes : List Entity :=
  [{ id := ⟨"f"⟩, name := "a\\b\"c\".ts", parent := none, location := .unknown
     doc := some "first\n\tsecond\x01", declaration := .sourceFile [⟨"C"⟩] },
   { id := ⟨"C"⟩, name := "Größe 𝒞", parent := some ⟨"f"⟩, location := ⟨"a", 4294967295, 0⟩
     doc := none, declaration := .classType [] (some (.keyword "Base")) [] [⟨"p"⟩] true },
   { id := ⟨"p"⟩, name := "", parent := some ⟨"C"⟩, location := ⟨"a", 2, 3⟩, doc := some ""
     declaration := .property
       (some (.union [.reference "Map" (some ⟨"C"⟩) [.array (.literal "null")], .tuple []]))
       true false false }]

theorem ofText_document_escapes :
    (escapes.map (·.id)).Nodup ∧ (Metadata.document escapes [⟨"f"⟩]).depth ≤ Metadata.levels ∧
      ofText (Metadata.document escapes [⟨"f"⟩]).pretty =
        .ok ⟨escapes, [⟨"f"⟩], by decide, by decide⟩ := by
  have nests : (Metadata.document escapes [⟨"f"⟩]).depth ≤ Metadata.levels := by decide +kernel
  exact ⟨by decide, nests, ((ofText_document (by decide) (by decide)).2 nests).2⟩

end Registry

end ApiManual
