import ApiManual.Proofs.Catalog.Acceptance

/-!
# The order of registration

Registries with the same entities in another order find the same entity under every identifier
and list the same members.  Parents are another matter: an entity that names none gets the first
container that lists it, so the order decides where several do.  Where at most one container
lists such an entity, parents do not depend on the order either, and then soundness, which is
said by parents and members alone, does not.
-/

namespace ApiManual.Registry

variable {registry first second : Registry}

/-- At most one entity lists an entity that names no parent. -/
def SingleContainers (registry : Registry) : Prop :=
  ∀ entity ∈ registry.entities, entity.parent = none →
    ∀ one ∈ registry.entities, ∀ other ∈ registry.entities,
      entity.id ∈ one.members → entity.id ∈ other.members → one.id = other.id

instance (registry : Registry) : Decidable registry.SingleContainers :=
  List.decidableBAll _ registry.entities

/-! ## Parents -/

/-- With single containers, an entity that names no parent has that of any container that lists
it, whatever comes first. -/
theorem isParent_iff_of_single (single : registry.SingleContainers) {id parent : EntityId} :
    registry.IsParent id parent ↔
      ∃ entity ∈ registry.entities, entity.id = id ∧
        (entity.parent = some parent ∨ entity.parent = none ∧
          ∃ container ∈ registry.entities, container.id = parent ∧ id ∈ container.members) := by
  constructor
  · intro step
    cases step with
    | named registered given => exact ⟨_, registered, rfl, .inl given⟩
    | container registered unnamed split listed first =>
        exact ⟨_, registered, rfl, .inr ⟨unnamed, _, by simp [split], rfl, listed⟩⟩
  · rintro ⟨entity, registered, rfl, given | ⟨unnamed, container, held, rfl, listed⟩⟩
    · exact .named registered given
    · have some : (registry.container? entity.id).isSome := by
        rw [container?, Option.isSome_map, List.find?_isSome]
        exact ⟨container, held, by simpa using listed⟩
      obtain ⟨found, foundEq⟩ := Option.isSome_iff_exists.mp some
      obtain ⟨earliest, before, after, split, rfl, earliestListed, first⟩ :=
        container?_eq_some_iff.mp foundEq
      have same : container.id = earliest.id :=
        single entity registered unnamed container held earliest (by simp [split])
          listed earliestListed
      rw [same]
      exact .container registered unnamed split earliestListed first

section Reordered

variable (reordered : first.entities.Perm second.entities)

include reordered

theorem SingleContainers.of_perm (single : first.SingleContainers) :
    second.SingleContainers := by
  intro entity registered unnamed one oneRegistered other otherRegistered
  exact single entity (reordered.mem_iff.mpr registered) unnamed
    one (reordered.mem_iff.mpr oneRegistered) other (reordered.mem_iff.mpr otherRegistered)

theorem get?_eq_of_perm (id : EntityId) : first.get? id = second.get? id := by
  apply Option.ext
  intro entity
  rw [get?_eq_some_iff, get?_eq_some_iff, reordered.mem_iff]

theorem mem_ids_iff_of_perm (id : EntityId) : id ∈ first.ids ↔ id ∈ second.ids :=
  (reordered.map _).mem_iff

theorem isParent_eq_of_perm (single : first.SingleContainers) :
    first.IsParent = second.IsParent := by
  funext id parent
  apply propext
  rw [isParent_iff_of_single single, isParent_iff_of_single (single.of_perm reordered)]
  simp only [reordered.mem_iff]

theorem parent?_eq_of_perm (single : first.SingleContainers) (id : EntityId) :
    first.parent? id = second.parent? id := by
  apply Option.ext
  intro parent
  rw [parent?_eq_some_iff, parent?_eq_some_iff, isParent_eq_of_perm reordered single]

/-! ## Acceptance -/

theorem lists_eq_of_perm : first.Lists = second.Lists := by
  funext container member
  simp only [Lists, reordered.mem_iff]

theorem lineageEnds_iff_of_perm (single : first.SingleContainers) (id : EntityId) :
    first.LineageEnds id ↔ second.LineageEnds id := by
  rw [lineageEnds_iff, lineageEnds_iff, isParent_eq_of_perm reordered single]

/-- With single containers, no fault is found in a registry exactly when none is found in another
one with the same entities. -/
theorem faultless_iff_of_perm (single : first.SingleContainers) :
    (first.unknownReference? = none ∧ first.endlessLineage? = none ∧
        ∃ order, first.containersFirst = .ok order) ↔
      second.unknownReference? = none ∧ second.endlessLineage? = none ∧
        ∃ order, second.containersFirst = .ok order := by
  simp only [unknownReference?_eq_none_iff, endlessLineage?_eq_none_iff,
    containersFirst_isOk_iff, reordered.mem_iff, mem_ids_iff_of_perm reordered,
    lineageEnds_iff_of_perm reordered single, lists_eq_of_perm reordered]

end Reordered

end ApiManual.Registry

namespace ApiManual.Catalog

variable {registry first second : Registry} {catalog : Catalog}

/-- The catalog of a registry holds that registry. -/
theorem registry_eq_of_ofRegistry (accepted : ofRegistry registry = .ok catalog) :
    catalog.registry = registry := by
  unfold ofRegistry at accepted
  split at accepted
  · cases accepted
  · split at accepted
    · cases accepted
    · split at accepted
      · cases accepted
      · cases accepted
        rfl

theorem ofRegistry_accepts_iff :
    (∃ catalog, ofRegistry registry = .ok catalog) ↔
      registry.unknownReference? = none ∧ registry.endlessLineage? = none ∧
        ∃ order, registry.containersFirst = .ok order := by
  rw [← Registry.ofRegistry_isOk_iff]
  constructor
  · intro ⟨catalog, accepted⟩
    exact ⟨catalog, accepted, registry_eq_of_ofRegistry accepted⟩
  · intro ⟨catalog, accepted, _⟩
    exact ⟨catalog, accepted⟩

/-- What a catalog carries as evidence is enough for its registry to be accepted. -/
theorem accepts_registry (catalog : Catalog) :
    ∃ accepted, ofRegistry catalog.registry = .ok accepted := by
  rw [ofRegistry_accepts_iff, Registry.unknownReference?_eq_none_iff,
    Registry.endlessLineage?_eq_none_iff, Registry.containersFirst_isOk_iff]
  refine ⟨?_, catalog.lineages_end, ?_⟩
  · intro entity registered id reference
    exact Registry.contains_iff.mp (catalog.references_registered entity registered id reference)
  · intro entity registered cycle
    have held : entity.id ∈ catalog.order :=
      catalog.order_complete (List.mem_map_of_mem registered)
    exact Nat.lt_irrefl _ (catalog.order_containersFirst.heightIn_lt_of_transGen held cycle).2

/-- With single containers, the order of entities does not decide about acceptance. -/
theorem ofRegistry_accepts_iff_of_perm (reordered : first.entities.Perm second.entities)
    (single : first.SingleContainers) :
    (∃ catalog, ofRegistry first = .ok catalog) ↔
      ∃ catalog, ofRegistry second = .ok catalog := by
  rw [ofRegistry_accepts_iff, ofRegistry_accepts_iff,
    Registry.faultless_iff_of_perm reordered single]

end ApiManual.Catalog
