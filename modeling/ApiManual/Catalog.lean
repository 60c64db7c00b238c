import ApiManual.Catalog.Membership

/-!
# Catalogs

A registry whose structure is sound, with the evidence of it: whatever walks
along parents or down members ends without a check of its own.  A registry that
is not sound is refused with its first fault: unknown references come before
endless lineages, and these before cyclic membership.
-/

namespace ApiManual

/-- A registry with evidence that its structure is sound. The `order` lists
every registered identifier before its members. -/
structure Catalog where
  registry : Registry
  references_registered : ∀ entity ∈ registry.entities,
    ∀ id ∈ entity.declaration.references, registry.contains id
  lineages_end : ∀ entity ∈ registry.entities, registry.LineageEnds entity.id
  order : List EntityId
  order_containersFirst : registry.ContainersFirst order
  order_complete : registry.ids ⊆ order

namespace Registry

/-- The first entity, in order, that is made of an unregistered one, and the
first such part of it. -/
def unknownReference? (registry : Registry) : Option (EntityId × EntityId) :=
  registry.entities.findSome? fun entity =>
    (entity.declaration.references.find? (!registry.contains ·)).map
      fun reference => (entity.id, reference)

/-- The first registered identifier whose lineage does not end. -/
def endlessLineage? (registry : Registry) : Option EntityId :=
  registry.firstEndless? [] registry.ids

theorem endlessLineage?_eq_find? (registry : Registry) :
    registry.endlessLineage? =
      registry.ids.find? fun id => !decide (registry.LineageEnds id) :=
  firstEndless?_eq_find? (by simp)

theorem references_registered_of_unknownReference? {registry : Registry}
    (none_unknown : registry.unknownReference? = none) :
    ∀ entity ∈ registry.entities,
      ∀ id ∈ entity.declaration.references, registry.contains id := by
  intro entity member id reference
  have parts := List.findSome?_eq_none_iff.mp none_unknown entity member
  rw [Option.map_eq_none_iff, List.find?_eq_none] at parts
  simpa using parts id reference

theorem lineages_end_of_endlessLineage? {registry : Registry}
    (none_endless : registry.endlessLineage? = none) :
    ∀ entity ∈ registry.entities, registry.LineageEnds entity.id := by
  intro entity member
  rw [endlessLineage?_eq_find?] at none_endless
  simpa using List.find?_eq_none.mp none_endless entity.id (List.mem_map_of_mem member)

end Registry

namespace Catalog

/-- The catalog of a registry whose structure is sound, or its first fault. -/
def ofRegistry (registry : Registry) : Except Error Catalog :=
  match unknown : registry.unknownReference? with
  | some (source, target) => .error (.unknownReference source target)
  | none => match endless : registry.endlessLineage? with
    | some id => .error (.cyclicParentChain id)
    | none => match settled : registry.containersFirst with
      | .error id => .error (.cyclicMembership id)
      | .ok order => .ok {
          registry
          references_registered :=
            Registry.references_registered_of_unknownReference? unknown
          lineages_end := Registry.lineages_end_of_endlessLineage? endless
          order
          order_containersFirst := (Registry.settle_eq_ok .nil settled).1
          order_complete := (Registry.settle_eq_ok .nil settled).2.2.1 }

def entity? (catalog : Catalog) (id : EntityId) : Option Entity :=
  catalog.registry.get? id

def kind? (catalog : Catalog) (id : EntityId) : Option Kind :=
  (catalog.entity? id).map (·.kind)

def parent? (catalog : Catalog) (id : EntityId) : Option EntityId :=
  catalog.registry.parent? id

/-- The entities that identifiers stand for, in order; those that are not
registered are left out. -/
def entities (catalog : Catalog) (ids : List EntityId) : List Entity :=
  ids.filterMap catalog.entity?

/-- Every lineage ends, also that of an identifier that is not registered. -/
theorem lineageEnds (catalog : Catalog) (id : EntityId) :
    catalog.registry.LineageEnds id := by
  by_cases known : id ∈ catalog.registry.ids
  · obtain ⟨entity, member, rfl⟩ := List.mem_map.mp known
    exact catalog.lineages_end entity member
  · unfold Registry.LineageEnds
    rw [Registry.lineageFrom?_of_parent?_eq_none (by simp)
      (Registry.parent?_of_not_mem known)]
    rfl

/-- The identifier itself, its parent, the parent of that one, and so on to an
identifier without a parent. -/
def lineage (catalog : Catalog) (id : EntityId) : List EntityId :=
  (catalog.registry.lineageFrom? [] id).get (catalog.lineageEnds id)

theorem lineageFrom?_eq_lineage (catalog : Catalog) (id : EntityId) :
    catalog.registry.lineageFrom? [] id = some (catalog.lineage id) :=
  (Option.some_get _).symm

theorem lineage_of_parent?_eq_none {catalog : Catalog} {id : EntityId}
    (orphan : catalog.parent? id = none) : catalog.lineage id = [id] := by
  have found := catalog.lineageFrom?_eq_lineage id
  rw [Registry.lineageFrom?_of_parent?_eq_none (by simp) orphan] at found
  exact (Option.some.inj found).symm

theorem lineage_of_parent?_eq_some {catalog : Catalog} {id parent : EntityId}
    (found : catalog.parent? id = some parent) :
    catalog.lineage id = id :: catalog.lineage parent := by
  have whole := catalog.lineageFrom?_eq_lineage id
  rw [Registry.lineageFrom?_of_parent?_eq_some (by simp) found] at whole
  obtain ⟨rest, restEq, equal⟩ := Option.map_eq_some_iff.mp whole
  have fromParent := Registry.lineageFrom?_mono (List.nil_subset _) restEq
  rw [catalog.lineageFrom?_eq_lineage] at fromParent
  rw [← equal, Option.some.inj fromParent]

/-- How many identifiers there are from a registered one on, in an order with
containers first: a bound on how deep its members can nest. -/
def height (catalog : Catalog) (id : EntityId) : Nat :=
  Registry.heightIn catalog.order id

/-- A member is lower than the entity that lists it. -/
theorem height_lt {catalog : Catalog} {id member : EntityId}
    (listed : member ∈ catalog.registry.membersOf id) :
    catalog.height member < catalog.height id :=
  catalog.order_containersFirst.heightIn_lt
    (catalog.order_complete (Registry.mem_ids_of_mem_membersOf listed)) listed

/-- How deep the members of an entity can nest, whether or not the entity itself
is registered. -/
def depth (catalog : Catalog) (entity : Entity) : Nat :=
  ((entity.members.map catalog.height).max?.map (· + 1)).getD 0

/-- What is registered under a member lies deeper than the entity that lists the
member. -/
theorem depth_lt {catalog : Catalog} {container member : Entity} {id : EntityId}
    (listed : id ∈ container.members) (found : catalog.entity? id = some member) :
    catalog.depth member < catalog.depth container := by
  have below : catalog.depth member ≤ catalog.height id := by
    unfold depth
    cases highest : (member.members.map catalog.height).max? with
    | none => simp
    | some top =>
        obtain ⟨inner, innerListed, rfl⟩ :=
          List.mem_map.mp (List.max?_mem highest)
        have lower : catalog.height inner < catalog.height id :=
          height_lt (by rwa [Registry.membersOf_of_get? found])
        exact lower
  have above : catalog.height id < catalog.depth container := by
    unfold depth
    have held : catalog.height id ∈ container.members.map catalog.height :=
      List.mem_map_of_mem listed
    cases highest : (container.members.map catalog.height).max? with
    | none =>
        rw [List.max?_eq_none_iff] at highest
        simp [highest] at held
    | some top =>
        have bound := (List.max?_eq_some_iff.mp highest).2 _ held
        simp only [Option.map_some, Option.getD_some]
        omega
  omega

end Catalog

end ApiManual
