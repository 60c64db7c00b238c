import ApiManual.Catalog
import Mathlib.Logic.Relation

/-!
# Which registries are accepted

A registry is accepted exactly when its structure is sound, and soundness is
said here without the walks that establish it: by the relations "is the parent
of" and "is listed by" between identifiers.

Both walks fail by meeting an identifier of the path that led to them.  All
identifiers of that path reach the one at hand, so what is met again reaches
itself; this is the invariant behind both failure lemmas.
-/

namespace ApiManual.Registry

open Relation

variable {registry : Registry}

/-! ## Parents -/

/-- An entity's parent is the one it names, or else the first entity, in the
order of registration, that lists it as a member. -/
inductive IsParent (registry : Registry) : EntityId → EntityId → Prop where
  | named {entity : Entity} {parent : EntityId}
      (registered : entity ∈ registry.entities)
      (given : entity.parent = some parent) :
      IsParent registry entity.id parent
  | container {entity container : Entity} {before after : List Entity}
      (registered : entity ∈ registry.entities)
      (unnamed : entity.parent = none)
      (split : registry.entities = before ++ container :: after)
      (listed : entity.id ∈ container.members)
      (first : ∀ earlier ∈ before, entity.id ∉ earlier.members) :
      IsParent registry entity.id container.id

theorem container?_eq_some_iff {id container : EntityId} :
    registry.container? id = some container ↔
      ∃ entity before after, registry.entities = before ++ entity :: after ∧
        entity.id = container ∧ id ∈ entity.members ∧
        ∀ earlier ∈ before, id ∉ earlier.members := by
  simp only [container?, Option.map_eq_some_iff, List.find?_eq_some_iff_append,
    decide_eq_true_eq, Bool.not_eq_true', decide_eq_false_iff_not]
  constructor
  · rintro ⟨entity, ⟨listed, before, after, split, first⟩, named⟩
    exact ⟨entity, before, after, split, named, listed, first⟩
  · rintro ⟨entity, before, after, split, named, listed, first⟩
    exact ⟨entity, ⟨listed, before, after, split, first⟩, named⟩

/-- The parent that is looked up is the one entity that stands in the parent
relation. -/
theorem parent?_eq_some_iff {id parent : EntityId} :
    registry.parent? id = some parent ↔ registry.IsParent id parent := by
  constructor
  · intro found
    unfold parent? at found
    split at found
    · cases found
    · next entity known =>
        obtain ⟨registered, rfl⟩ := get?_eq_some_iff.mp known
        split at found
        · next given =>
            cases found
            exact .named registered given
        · next unnamed =>
            obtain ⟨container, before, after, split, rfl, listed, first⟩ :=
              container?_eq_some_iff.mp found
            exact .container registered unnamed split listed first
  · rintro (⟨registered, given⟩ | ⟨registered, unnamed, split, listed, first⟩)
    · simp [parent?, get?_eq_some_iff.mpr ⟨registered, rfl⟩, given]
    · simp only [parent?, get?_eq_some_iff.mpr ⟨registered, rfl⟩, unnamed]
      exact container?_eq_some_iff.mpr
        ⟨_, _, _, split, rfl, listed, first⟩

/-- Where the lineage of an identifier ends, that of its parent is what comes
after the identifier. -/
theorem lineageFrom?_parent {id parent : EntityId} {lineage : List EntityId}
    (step : registry.IsParent id parent)
    (found : registry.lineageFrom? [] id = some lineage) :
    ∃ rest, registry.lineageFrom? [] parent = some rest ∧ lineage = id :: rest := by
  rw [lineageFrom?_of_parent?_eq_some (by simp) (parent?_eq_some_iff.mpr step)]
    at found
  obtain ⟨rest, restEq, rfl⟩ := Option.map_eq_some_iff.mp found
  exact ⟨rest, lineageFrom?_mono (List.nil_subset _) restEq, rfl⟩

/-- A lineage that ends gets shorter on the way along it. -/
theorem lineageFrom?_ancestor {id ancestor : EntityId} {lineage : List EntityId}
    (found : registry.lineageFrom? [] id = some lineage)
    (above : TransGen registry.IsParent id ancestor) :
    ∃ rest, registry.lineageFrom? [] ancestor = some rest ∧
      rest.length < lineage.length := by
  induction above with
  | single step =>
      obtain ⟨rest, restEq, rfl⟩ := lineageFrom?_parent step found
      exact ⟨rest, restEq, by simp⟩
  | tail _ step ih =>
      obtain ⟨middle, middleEq, shorter⟩ := ih
      obtain ⟨rest, restEq, rfl⟩ := lineageFrom?_parent step middleEq
      exact ⟨rest, restEq, Nat.lt_of_succ_lt shorter⟩

/-- On a lineage that ends nobody is their own ancestor. -/
theorem LineageEnds.not_cyclic {id ancestor : EntityId}
    (ends : registry.LineageEnds id)
    (above : ReflTransGen registry.IsParent id ancestor) :
    ¬ TransGen registry.IsParent ancestor ancestor := by
  obtain ⟨lineage, found⟩ := Option.isSome_iff_exists.mp ends
  obtain ⟨rest, restEq⟩ :
      ∃ rest, registry.lineageFrom? [] ancestor = some rest := by
    rcases reflTransGen_iff_eq_or_transGen.mp above with rfl | proper
    · exact ⟨lineage, found⟩
    · obtain ⟨rest, restEq, _⟩ := lineageFrom?_ancestor found proper
      exact ⟨rest, restEq⟩
  intro cycle
  obtain ⟨again, againEq, shorter⟩ := lineageFrom?_ancestor restEq cycle
  rw [restEq] at againEq
  cases againEq
  exact Nat.lt_irrefl _ shorter

/-- A lineage that does not end leads to an identifier that is its own
ancestor. -/
theorem cyclic_of_lineageFrom?_eq_none {path : List EntityId} {id : EntityId}
    (reached : ∀ earlier ∈ path, TransGen registry.IsParent earlier id)
    (endless : registry.lineageFrom? path id = none) :
    ∃ ancestor, ReflTransGen registry.IsParent id ancestor ∧
      TransGen registry.IsParent ancestor ancestor := by
  induction path, id using lineageFrom?.induct registry with
  | case1 path id visited => exact ⟨id, .refl, reached id visited⟩
  | case2 path id fresh orphan =>
      rw [lineageFrom?_of_parent?_eq_none fresh orphan] at endless
      cases endless
  | case3 path id fresh parent found ih =>
      rw [lineageFrom?_of_parent?_eq_some fresh found,
        Option.map_eq_none_iff] at endless
      have step := parent?_eq_some_iff.mp found
      have onward : ∀ earlier ∈ id :: path,
          TransGen registry.IsParent earlier parent := by
        intro earlier member
        rcases List.mem_cons.mp member with rfl | earlierMember
        · exact .single step
        · exact .tail (reached earlier earlierMember) step
      obtain ⟨ancestor, above, cycle⟩ := ih onward endless
      exact ⟨ancestor, .head step above, cycle⟩

/-- Lineages end exactly where nobody on them is their own ancestor. -/
theorem lineageEnds_iff {id : EntityId} :
    registry.LineageEnds id ↔
      ∀ ancestor, ReflTransGen registry.IsParent id ancestor →
        ¬ TransGen registry.IsParent ancestor ancestor := by
  constructor
  · exact fun ends ancestor above => ends.not_cyclic above
  · intro acyclic
    refine Option.isSome_iff_ne_none.mpr fun endless => ?_
    obtain ⟨ancestor, above, cycle⟩ :=
      cyclic_of_lineageFrom?_eq_none (by simp) endless
    exact acyclic ancestor above cycle

/-! ## Members -/

/-- An entity lists another as its member. -/
def Lists (registry : Registry) (container member : EntityId) : Prop :=
  ∃ entity ∈ registry.entities, entity.id = container ∧ member ∈ entity.members

theorem mem_membersOf_iff {container member : EntityId} :
    member ∈ registry.membersOf container ↔ registry.Lists container member := by
  constructor
  · intro listed
    unfold membersOf at listed
    split at listed
    · simp at listed
    · next entity found =>
        obtain ⟨registered, rfl⟩ := get?_eq_some_iff.mp found
        exact ⟨entity, registered, rfl, listed⟩
  · rintro ⟨entity, registered, rfl, listed⟩
    rwa [membersOf_of_get? (get?_eq_some_iff.mpr ⟨registered, rfl⟩)]

/-- In an order with containers first, what is below an identifier is lower. -/
theorem ContainersFirst.heightIn_lt_of_transGen {order : List EntityId}
    (ordered : registry.ContainersFirst order) {container member : EntityId}
    (held : container ∈ order) (below : TransGen registry.Lists container member) :
    member ∈ order ∧ heightIn order member < heightIn order container := by
  induction below with
  | single step =>
      have listed := mem_membersOf_iff.mpr step
      exact ⟨ordered.mem_of_mem held listed, ordered.heightIn_lt held listed⟩
  | tail _ step ih =>
      have listed := mem_membersOf_iff.mpr step
      exact ⟨ordered.mem_of_mem ih.1 listed,
        Nat.lt_trans (ordered.heightIn_lt ih.1 listed) ih.2⟩

/-- An identifier at which a walk over members fails is its own member through
a chain of containers. -/
theorem cyclic_of_settle_eq_error {path settled ids : List EntityId}
    {again : EntityId}
    (reached : ∀ container ∈ path, ∀ id ∈ ids, TransGen registry.Lists container id)
    (failed : registry.settle path settled ids = .error again) :
    TransGen registry.Lists again again := by
  induction path, settled, ids using settle.induct registry with
  | case1 path settled =>
      rw [settle] at failed
      cases failed
  | case2 path settled id rest onPath =>
      rw [settle, dif_pos onPath] at failed
      cases failed
      exact reached again onPath again List.mem_cons_self
  | case3 path settled id rest notOnPath known ih =>
      rw [settle, dif_neg notOnPath, if_pos known] at failed
      exact ih (fun container onPath other member =>
        reached container onPath other (List.mem_cons_of_mem _ member)) failed
  | case4 path settled id rest notOnPath fresh inner innerEq ih =>
      rw [settle, dif_neg notOnPath, if_neg fresh, innerEq] at failed
      cases failed
      refine ih ?_ innerEq
      intro container onPath member listed
      have step := mem_membersOf_iff.mp listed
      rcases List.mem_cons.mp onPath with rfl | above
      · exact .single step
      · exact .tail (reached container above id List.mem_cons_self) step
  | case5 path settled id rest notOnPath fresh below belowEq _ ihRest =>
      rw [settle, dif_neg notOnPath, if_neg fresh, belowEq] at failed
      exact ihRest (fun container onPath other member =>
        reached container onPath other (List.mem_cons_of_mem _ member)) failed

/-- An order with containers first exists exactly when no entity is its own
member through a chain of containers. -/
theorem containersFirst_isOk_iff :
    (∃ order, registry.containersFirst = .ok order) ↔
      ∀ entity ∈ registry.entities, ¬ TransGen registry.Lists entity.id entity.id := by
  constructor
  · rintro ⟨order, settled⟩ entity registered cycle
    obtain ⟨ordered, _, complete, _⟩ := settle_eq_ok .nil settled
    have held : entity.id ∈ order := complete (List.mem_map_of_mem registered)
    exact Nat.lt_irrefl _ (ordered.heightIn_lt_of_transGen held cycle).2
  · intro acyclic
    cases result : registry.containersFirst with
    | ok order => exact ⟨order, rfl⟩
    | error again =>
        have cycle := cyclic_of_settle_eq_error (by simp) result
        obtain ⟨_, ⟨entity, registered, rfl, _⟩, _⟩ :=
          TransGen.head'_iff.mp cycle
        exact absurd cycle (acyclic entity registered)

/-! ## Acceptance -/

/-- A sound structure: what declarations are made of is registered, following
parents from a registered entity never leads to an entity a second time, and no
entity is its own member through a chain of containers. -/
structure Sound (registry : Registry) : Prop where
  references_registered : ∀ entity ∈ registry.entities, ∀ id,
    id ∈ entity.declaration.members ∨ id ∈ entity.declaration.parameters ∨
      id ∈ entity.declaration.typeParameters → id ∈ registry.ids
  parents_acyclic : ∀ entity ∈ registry.entities, ∀ ancestor,
    ReflTransGen registry.IsParent entity.id ancestor →
      ¬ TransGen registry.IsParent ancestor ancestor
  members_acyclic : ∀ entity ∈ registry.entities,
    ¬ TransGen registry.Lists entity.id entity.id

theorem unknownReference?_eq_none_iff :
    registry.unknownReference? = none ↔
      ∀ entity ∈ registry.entities, ∀ id ∈ entity.declaration.references,
        id ∈ registry.ids := by
  constructor
  · intro none_unknown entity registered id reference
    exact contains_iff.mp (references_registered_of_unknownReference?
      none_unknown entity registered id reference)
  · intro known
    refine List.findSome?_eq_none_iff.mpr fun entity registered => ?_
    rw [Option.map_eq_none_iff, List.find?_eq_none]
    intro id reference
    simp [contains_iff.mpr (known entity registered id reference)]

theorem endlessLineage?_eq_none_iff :
    registry.endlessLineage? = none ↔
      ∀ entity ∈ registry.entities, registry.LineageEnds entity.id := by
  constructor
  · exact lineages_end_of_endlessLineage?
  · intro ends
    rw [endlessLineage?_eq_find?]
    refine List.find?_eq_none.mpr fun id registered => ?_
    obtain ⟨entity, held, rfl⟩ := List.mem_map.mp registered
    simpa using ends entity held

/-- A registry becomes a catalog exactly when none of the three searches for a
fault finds one. -/
theorem ofRegistry_isOk_iff :
    (∃ catalog, Catalog.ofRegistry registry = .ok catalog ∧
        catalog.registry = registry) ↔
      registry.unknownReference? = none ∧ registry.endlessLineage? = none ∧
        ∃ order, registry.containersFirst = .ok order := by
  unfold Catalog.ofRegistry
  split
  · next unknown => simp [unknown]
  · next none_unknown =>
      split
      · next endless => simp [endless]
      · next none_endless =>
          split
          · next cyclic => simp [cyclic]
          · next order settled => simp [none_unknown, none_endless, settled]

end ApiManual.Registry

namespace ApiManual.Catalog

/-- A registry is accepted if and only if its structure is sound. -/
theorem ofRegistry_accepts_iff_sound (registry : Registry) :
    (∃ catalog, ofRegistry registry = .ok catalog ∧
        catalog.registry = registry) ↔ registry.Sound := by
  rw [Registry.ofRegistry_isOk_iff, Registry.unknownReference?_eq_none_iff,
    Registry.endlessLineage?_eq_none_iff, Registry.containersFirst_isOk_iff]
  constructor
  · rintro ⟨known, ends, acyclic⟩
    refine ⟨fun entity registered id reference => ?_,
      fun entity registered => Registry.lineageEnds_iff.mp (ends entity registered), acyclic⟩
    apply known entity registered
    simpa [Declaration.references, or_assoc] using reference
  · rintro ⟨known, parents, acyclic⟩
    refine ⟨fun entity registered id reference => known entity registered id ?_,
      fun entity registered => Registry.lineageEnds_iff.mpr (parents entity registered), acyclic⟩
    simpa [Declaration.references, or_assoc] using reference

end ApiManual.Catalog
