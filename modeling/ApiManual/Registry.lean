import ApiManual.Entity
import ApiManual.Error

/-!
# Registries

A registry holds each identifier once, and its entry points are registered; both
are part of the type, so every registry has them however it came about.
-/

namespace ApiManual

/-- Registered entities and entry points. An entry point may be listed more than
once. -/
structure Registry where
  entities : List Entity
  entryPoints : List EntityId
  ids_nodup : (entities.map (·.id)).Nodup
  entryPoints_registered : ∀ id ∈ entryPoints, id ∈ entities.map (·.id)

namespace Registry

def empty : Registry where
  entities := []
  entryPoints := []
  ids_nodup := by simp
  entryPoints_registered := by simp

def ids (registry : Registry) : List EntityId := registry.entities.map (·.id)

def contains (registry : Registry) (id : EntityId) : Bool :=
  registry.entities.any (·.id = id)

def get? (registry : Registry) (id : EntityId) : Option Entity :=
  registry.entities.find? (·.id = id)

def size (registry : Registry) : Nat := registry.entities.length

def isEmpty (registry : Registry) : Bool := registry.entities.isEmpty

theorem contains_iff {registry : Registry} {id : EntityId} :
    registry.contains id = true ↔ id ∈ registry.ids := by
  simp [contains, ids]

/-- What is registered under an identifier is a registered entity with that
identifier, and every such entity is found. -/
theorem get?_eq_some_iff {registry : Registry} {id : EntityId}
    {entity : Entity} :
    registry.get? id = some entity ↔
      entity ∈ registry.entities ∧ entity.id = id := by
  constructor
  · intro found
    exact ⟨List.mem_of_find?_eq_some found,
      by simpa using List.find?_some found⟩
  · rintro ⟨member, rfl⟩
    have nodup := registry.ids_nodup
    unfold get?
    generalize registry.entities = entities at member nodup
    induction entities with
    | nil => simp at member
    | cons first rest ih =>
        rw [List.map_cons, List.nodup_cons] at nodup
        rcases List.mem_cons.mp member with rfl | later
        · simp
        · have different : first.id ≠ entity.id := fun equal =>
            nodup.1 (equal ▸ List.mem_map_of_mem later)
          simp [different, ih later nodup.2]

/-- Registers an entity after all others. -/
def insert (registry : Registry) (entity : Entity) : Except Error Registry :=
  if known : registry.contains entity.id then
    .error (.duplicateEntity entity.id)
  else .ok {
    entities := registry.entities ++ [entity]
    entryPoints := registry.entryPoints
    ids_nodup := by
      have fresh : entity.id ∉ registry.ids := fun member =>
        known (contains_iff.mpr member)
      rw [List.map_append, List.nodup_append]
      refine ⟨registry.ids_nodup, by simp, ?_⟩
      intro id member other last equal
      rw [List.map_singleton, List.mem_singleton] at last
      exact fresh (last ▸ equal ▸ member)
    entryPoints_registered := by
      intro id member
      rw [List.map_append]
      exact List.mem_append_left _ (registry.entryPoints_registered id member) }

/-- Makes a registered entity the last entry point. -/
def addEntryPoint (registry : Registry) (id : EntityId) :
    Except Error Registry :=
  if known : registry.contains id then .ok {
    entities := registry.entities
    entryPoints := registry.entryPoints ++ [id]
    ids_nodup := registry.ids_nodup
    entryPoints_registered := by
      intro other member
      rcases List.mem_append.mp member with earlier | last
      · exact registry.entryPoints_registered other earlier
      · exact List.mem_singleton.mp last ▸ contains_iff.mp known }
  else .error (.unknownEntryPoint id)

/-- The registry of entities in order and of entry points among them. -/
def ofEntities (entities : List Entity) (entryPoints : List EntityId) :
    Except Error Registry := do
  let registry ← entities.foldlM insert empty
  entryPoints.foldlM addEntryPoint registry

end Registry

end ApiManual
