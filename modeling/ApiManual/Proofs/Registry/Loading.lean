import ApiManual.Registry
import Mathlib.Data.List.Induction
import Mathlib.Data.List.Nodup

/-!
# Loading registries

A registry is loaded by registering entities one after the other and then marking entry points
among them.  Loading succeeds when no identifier comes twice and every entry point is among the
entities.  Otherwise it stops at the first entity whose identifier came before, and only when
there is none at the first entry point that is missing.
-/

namespace ApiManual.Registry

variable {registry : Registry} {entities : List Entity} {entryPoints : List EntityId}

/-! ## One at a time -/

theorem insert_of_fresh {entity : Entity} (fresh : entity.id ∉ registry.ids) :
    ∃ next, registry.insert entity = .ok next ∧ next.entities = registry.entities ++ [entity] ∧
      next.entryPoints = registry.entryPoints := by
  rw [insert, dif_neg (mt contains_iff.mp fresh)]
  exact ⟨_, rfl, rfl, rfl⟩

theorem insert_of_mem {entity : Entity} (known : entity.id ∈ registry.ids) :
    registry.insert entity = .error (.duplicateEntity entity.id) := by
  rw [insert, dif_pos (contains_iff.mpr known)]

theorem addEntryPoint_of_mem {id : EntityId} (known : id ∈ registry.ids) :
    ∃ next, registry.addEntryPoint id = .ok next ∧ next.entities = registry.entities ∧
      next.entryPoints = registry.entryPoints ++ [id] := by
  rw [addEntryPoint, dif_pos (contains_iff.mpr known)]
  exact ⟨_, rfl, rfl, rfl⟩

theorem addEntryPoint_of_not_mem {id : EntityId} (missing : id ∉ registry.ids) :
    registry.addEntryPoint id = .error (.unknownEntryPoint id) := by
  rw [addEntryPoint, dif_neg (mt contains_iff.mp missing)]

/-! ## One after the other -/

/-- Entities with new identifiers are registered one after the other. -/
theorem foldlM_insert (distinct : ((registry.entities ++ entities).map (·.id)).Nodup) :
    ∃ filled, entities.foldlM insert registry = .ok filled ∧
      filled.entities = registry.entities ++ entities ∧
      filled.entryPoints = registry.entryPoints := by
  induction entities generalizing registry with
  | nil => exact ⟨registry, rfl, (List.append_nil _).symm, rfl⟩
  | cons entity rest ih =>
      have fresh : entity.id ∉ registry.ids := by
        rw [List.map_append, List.map_cons] at distinct
        exact fun known =>
          (List.nodup_append.mp distinct).2.2 _ known _ List.mem_cons_self rfl
      obtain ⟨next, inserted, entities, marked⟩ := insert_of_fresh fresh
      have later : ((next.entities ++ rest).map (·.id)).Nodup := by
        rwa [entities, List.append_assoc]
      obtain ⟨filled, rest, both, same⟩ := ih later
      rw [List.foldlM_cons, inserted]
      exact ⟨filled, rest, by rw [both, entities, List.append_assoc]; rfl, same.trans marked⟩

/-- Registered entities become entry points one after the other. -/
theorem foldlM_addEntryPoint (registered : ∀ id ∈ entryPoints, id ∈ registry.ids) :
    ∃ marked, entryPoints.foldlM addEntryPoint registry = .ok marked ∧
      marked.entities = registry.entities ∧
      marked.entryPoints = registry.entryPoints ++ entryPoints := by
  induction entryPoints generalizing registry with
  | nil => exact ⟨registry, rfl, rfl, (List.append_nil _).symm⟩
  | cons id rest ih =>
      rw [List.forall_mem_cons] at registered
      obtain ⟨next, added, same, points⟩ := addEntryPoint_of_mem registered.1
      have later : ∀ id ∈ rest, id ∈ next.ids := by
        rw [ids, same]
        exact registered.2
      obtain ⟨marked, rest, entities, both⟩ := ih later
      rw [List.foldlM_cons, added]
      exact ⟨marked, rest, entities.trans same,
        by rw [both, points, List.append_assoc]; rfl⟩

/-- Distinct entities fill an empty registry. -/
theorem filled_of_distinct (distinct : (entities.map (·.id)).Nodup) :
    ∃ filled, entities.foldlM insert empty = .ok filled ∧ filled.entities = entities ∧
      filled.entryPoints = [] :=
  foldlM_insert distinct

/-- Entities with distinct identifiers and entry points among them make a registry. -/
theorem ofEntities_eq_ok (distinct : (entities.map (·.id)).Nodup)
    (registered : ∀ id ∈ entryPoints, id ∈ entities.map (·.id)) :
    ofEntities entities entryPoints = .ok ⟨entities, entryPoints, distinct, registered⟩ := by
  obtain ⟨filled, inserted, entitiesEq, unmarked⟩ := filled_of_distinct distinct
  have known : ∀ id ∈ entryPoints, id ∈ filled.ids := by
    rw [ids, entitiesEq]
    exact registered
  obtain ⟨marked, added, same, points⟩ := foldlM_addEntryPoint known
  rw [ofEntities, inserted]
  show entryPoints.foldlM addEntryPoint filled = _
  rw [added]
  obtain ⟨_, _, _, _⟩ := marked
  obtain rfl := same.trans entitiesEq
  obtain rfl := points.trans (by rw [unmarked])
  rfl

/-! ## Where loading stops -/

/-- What keeps entities and entry points from being loaded: the first entity whose identifier an
earlier one has, or when there is none the first entry point that is not among the entities. -/
inductive Unloadable (entities : List Entity) (entryPoints : List EntityId) : Error → Prop where
  | repeated {before after : List Entity} {entity : Entity}
      (split : entities = before ++ entity :: after) (distinct : (before.map (·.id)).Nodup)
      (known : entity.id ∈ before.map (·.id)) :
      Unloadable entities entryPoints (.duplicateEntity entity.id)
  | missing {before after : List EntityId} {id : EntityId}
      (distinct : (entities.map (·.id)).Nodup) (split : entryPoints = before ++ id :: after)
      (registered : ∀ other ∈ before, other ∈ entities.map (·.id))
      (unknown : id ∉ entities.map (·.id)) :
      Unloadable entities entryPoints (.unknownEntryPoint id)

/-- A property of lists that the empty list has either holds or breaks with some first value. -/
theorem holds_or_breaks {α : Type} {holds : List α → Prop} (start : holds []) (values : List α) :
    holds values ∨ ∃ before value after, values = before ++ value :: after ∧ holds before ∧
      ¬ holds (before ++ [value]) := by
  induction values using List.reverseRecOn with
  | nil => exact .inl start
  | append_singleton before last ih =>
      cases ih with
      | inl held =>
          by_cases both : holds (before ++ [last])
          · exact .inl both
          · exact .inr ⟨before, last, [], rfl, held, both⟩
      | inr broken =>
          obtain ⟨front, value, after, split, held, breaks⟩ := broken
          exact .inr ⟨front, value, after ++ [last], by rw [split]; simp, held, breaks⟩

/-- Entities and entry points can be loaded unless something keeps them from it. -/
theorem loadable_or_unloadable (entities : List Entity) (entryPoints : List EntityId) :
    ((entities.map (·.id)).Nodup ∧ ∀ id ∈ entryPoints, id ∈ entities.map (·.id)) ∨
      ∃ error, Unloadable entities entryPoints error := by
  cases @holds_or_breaks _ (fun front => (front.map (·.id)).Nodup) List.nodup_nil entities with
  | inr broken =>
      obtain ⟨before, entity, after, split, distinct, breaks⟩ := broken
      have known : entity.id ∈ before.map (·.id) := by
        by_contra fresh
        apply breaks
        rw [List.map_append, List.map_singleton, ← List.concat_eq_append]
        exact distinct.concat fresh
      exact .inr ⟨_, .repeated split distinct known⟩
  | inl distinct =>
      cases @holds_or_breaks _ (fun front => ∀ id ∈ front, id ∈ entities.map (·.id))
          (List.forall_mem_nil _) entryPoints with
      | inl registered => exact .inl ⟨distinct, registered⟩
      | inr broken =>
          obtain ⟨before, id, after, split, registered, breaks⟩ := broken
          have unknown : id ∉ entities.map (·.id) := by
            intro known
            apply breaks
            rw [List.forall_mem_append]
            exact ⟨registered, List.forall_mem_singleton.mpr known⟩
          exact .inr ⟨_, .missing distinct split registered unknown⟩

/-- Loading reports what keeps it from succeeding. -/
theorem ofEntities_of_unloadable {error : Error} (fault : Unloadable entities entryPoints error) :
    ofEntities entities entryPoints = .error error := by
  cases fault with
  | @repeated before after entity split distinct known =>
      obtain ⟨filled, inserted, entitiesEq, _⟩ := filled_of_distinct distinct
      have inside : entity.id ∈ filled.ids := by
        rw [ids, entitiesEq]
        exact known
      rw [ofEntities, split, List.foldlM_append, inserted]
      show ((entity :: after).foldlM insert filled >>= _) = _
      rw [List.foldlM_cons, insert_of_mem inside]
      rfl
  | @missing before after id distinct split registered unknown =>
      obtain ⟨filled, inserted, entitiesEq, _⟩ := filled_of_distinct distinct
      have idsEq : filled.ids = entities.map (·.id) := by rw [ids, entitiesEq]
      obtain ⟨marked, added, same, _⟩ := foldlM_addEntryPoint (idsEq ▸ registered)
      have outside : id ∉ marked.ids := by
        rw [ids, same, ← ids, idsEq]
        exact unknown
      rw [ofEntities, inserted]
      show entryPoints.foldlM addEntryPoint filled = _
      rw [split, List.foldlM_append, added]
      show (id :: after).foldlM addEntryPoint marked = _
      rw [List.foldlM_cons, addEntryPoint_of_not_mem outside]
      rfl

theorem ofEntities_eq_error_iff {error : Error} :
    ofEntities entities entryPoints = .error error ↔ Unloadable entities entryPoints error := by
  constructor
  · intro failed
    cases loadable_or_unloadable entities entryPoints with
    | inl loadable =>
        rw [ofEntities_eq_ok loadable.1 loadable.2] at failed
        cases failed
    | inr unloadable =>
        obtain ⟨other, fault⟩ := unloadable
        rw [ofEntities_of_unloadable fault] at failed
        cases failed
        exact fault
  · exact ofEntities_of_unloadable

/-- What is loaded holds what was given. -/
theorem ofEntities_eq_ok_iff :
    ofEntities entities entryPoints = .ok registry ↔
      registry.entities = entities ∧ registry.entryPoints = entryPoints := by
  constructor
  · intro loaded
    cases loadable_or_unloadable entities entryPoints with
    | inl loadable =>
        rw [ofEntities_eq_ok loadable.1 loadable.2] at loaded
        cases loaded
        exact ⟨rfl, rfl⟩
    | inr unloadable =>
        obtain ⟨error, fault⟩ := unloadable
        rw [ofEntities_of_unloadable fault] at loaded
        cases loaded
  · intro same
    cases registry
    cases same.1
    cases same.2
    exact ofEntities_eq_ok _ _

/-- Loading succeeds exactly when identifiers are distinct and entry points among them. -/
theorem exists_ofEntities_eq_ok_iff :
    (∃ registry, ofEntities entities entryPoints = .ok registry) ↔
      (entities.map (·.id)).Nodup ∧ ∀ id ∈ entryPoints, id ∈ entities.map (·.id) := by
  constructor
  · intro loaded
    obtain ⟨registry, loaded⟩ := loaded
    obtain ⟨rfl, rfl⟩ := ofEntities_eq_ok_iff.mp loaded
    exact ⟨registry.ids_nodup, registry.entryPoints_registered⟩
  · intro loadable
    exact ⟨_, ofEntities_eq_ok loadable.1 loadable.2⟩

end ApiManual.Registry
