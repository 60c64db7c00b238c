import ApiManual.Proofs.Site.Trace

/-!
# Placements

The entities of a catalog that get documents of their own, with the paths of these: an entry
point is placed at the path that derives from its source file, and a member with a page of its
own below each place of its container.  An entity has as many placements as there are ways to
it, and different entities can be placed at the same path.

The site of a manual is the replay of the pages of all placements, in order.  So all that
rendering and adding pages do to a site can be said in terms of placements.
-/

namespace ApiManual

namespace Page

variable {catalog : Catalog} {container member : Entity}

/-- A member with a page of its own is a class, interface or namespace that a source file or
namespace lists. -/
theorem mem_nested_iff :
    member ∈ nested catalog container ↔
      container.kind.isModule ∧ member ∈ catalog.entities container.members ∧
        member.kind.hasOwnDocument := by
  have grouped : (∃ group ∈ container.kind.memberGroups, group.lists member.kind) ∧
      member.kind.hasOwnDocument ↔
        container.kind.isModule ∧ member.kind.hasOwnDocument := by
    generalize container.kind = outer
    generalize member.kind = inner
    cases outer <;> cases inner <;> decide
  simp only [nested, listed, List.mem_flatMap, List.mem_filter]
  constructor
  · rintro ⟨group, inGroups, ⟨held, lists⟩, own⟩
    exact ⟨(grouped.mp ⟨⟨group, inGroups, lists⟩, own⟩).1, held, own⟩
  · rintro ⟨module, held, own⟩
    obtain ⟨⟨group, inGroups, lists⟩, _⟩ := grouped.mpr ⟨module, own⟩
    exact ⟨group, inGroups, ⟨held, lists⟩, own⟩

theorem entity?_of_mem_nested (inside : member ∈ nested catalog container) :
    catalog.entity? member.id = some member := by
  obtain ⟨_, held, _⟩ := mem_nested_iff.mp inside
  obtain ⟨id, _, found⟩ := List.mem_filterMap.mp held
  obtain ⟨_, rfl⟩ := Registry.get?_eq_some_iff.mp found
  exact found

end Page

namespace Catalog

variable {catalog : Catalog} {extension path : String} {entity : Entity}

/-- An entity is documented at a path: it is an entry point, or nested in an entity that is
documented itself. -/
inductive Placed (catalog : Catalog) (extension : String) : String → Entity → Prop where
  | entryPoint {id : EntityId} {path : String} {entity : Entity}
      (listed : id ∈ catalog.registry.entryPoints) (found : catalog.entity? id = some entity)
      (derived : DocumentPath.entry? entity.location.fileName extension = some path) :
      Placed catalog extension path entity
  | nested {path : String} {container member : Entity}
      (placed : Placed catalog extension path container)
      (inside : member ∈ Page.nested catalog container) :
      Placed catalog extension (DocumentPath.member path member.name extension) member

/-- An entity at a path and what is nested in it, each before what is nested in itself. -/
def placementsFrom (catalog : Catalog) (extension path : String) (entity : Entity) :
    List (String × Entity) :=
  (path, entity) :: (Page.nested catalog entity).attach.flatMap fun ⟨member, _inside⟩ =>
    placementsFrom catalog extension (DocumentPath.member path member.name extension) member
termination_by catalog.depth entity
decreasing_by exact Page.depth_lt_of_mem_nested _inside

theorem placementsFrom_eq (path : String) (entity : Entity) :
    catalog.placementsFrom extension path entity =
      (path, entity) :: (Page.nested catalog entity).flatMap fun member =>
        catalog.placementsFrom extension (DocumentPath.member path member.name extension)
          member := by
  rw [placementsFrom]
  conv_rhs => rw [← List.attach_map_subtype_val (Page.nested catalog entity), List.flatMap_map]

/-- The places of the entry points, in order. -/
def entryPlaces (catalog : Catalog) (extension : String) : List (String × Entity) :=
  catalog.registry.entryPoints.filterMap fun id => do
    let entity ← catalog.entity? id
    return (← DocumentPath.entry? entity.location.fileName extension, entity)

/-- All placements, in the order in which pages are added. -/
def placements (catalog : Catalog) (extension : String) : List (String × Entity) :=
  (catalog.entryPlaces extension).flatMap fun (path, entity) =>
    catalog.placementsFrom extension path entity

theorem placed_of_mem_placementsFrom {path : String} {entity : Entity}
    {placement : String × Entity}
    (placed : Placed catalog extension path entity)
    (member : placement ∈ catalog.placementsFrom extension path entity) :
    Placed catalog extension placement.1 placement.2 := by
  rw [placementsFrom_eq] at member
  rcases List.mem_cons.mp member with rfl | below
  · exact placed
  · obtain ⟨nested, inside, held⟩ := List.mem_flatMap.mp below
    have : catalog.depth nested < catalog.depth entity := Page.depth_lt_of_mem_nested inside
    exact placed_of_mem_placementsFrom (placed.nested inside) held
termination_by catalog.depth entity

theorem mem_placementsFrom_self (path : String) (entity : Entity) :
    (path, entity) ∈ catalog.placementsFrom extension path entity := by
  rw [placementsFrom_eq]
  exact List.mem_cons_self

/-- What is nested in a placed entity is placed below it. -/
theorem mem_placementsFrom_nested {path inner : String} {entity container member : Entity}
    (placed : (inner, container) ∈ catalog.placementsFrom extension path entity)
    (inside : member ∈ Page.nested catalog container) :
    (DocumentPath.member inner member.name extension, member) ∈
      catalog.placementsFrom extension path entity := by
  rw [placementsFrom_eq] at placed ⊢
  rcases List.mem_cons.mp placed with same | below
  · cases same
    exact List.mem_cons_of_mem _
      (List.mem_flatMap.mpr ⟨member, inside, @mem_placementsFrom_self catalog extension _ member⟩)
  · obtain ⟨nested, between, held⟩ := List.mem_flatMap.mp below
    have : catalog.depth nested < catalog.depth entity := Page.depth_lt_of_mem_nested between
    exact List.mem_cons_of_mem _
      (List.mem_flatMap.mpr ⟨nested, between, mem_placementsFrom_nested held inside⟩)
termination_by catalog.depth entity

theorem mem_entryPlaces {placement : String × Entity} :
    placement ∈ catalog.entryPlaces extension ↔
      ∃ id ∈ catalog.registry.entryPoints, catalog.entity? id = some placement.2 ∧
        DocumentPath.entry? placement.2.location.fileName extension = some placement.1 := by
  obtain ⟨path, entity⟩ := placement
  simp only [entryPlaces, List.mem_filterMap, Option.bind_eq_bind, Option.bind_eq_some_iff,
    Option.pure_def, Option.some.injEq, Prod.mk.injEq]
  constructor
  · rintro ⟨id, listed, found, foundEq, derived, derivedEq, rfl, rfl⟩
    exact ⟨id, listed, foundEq, derivedEq⟩
  · rintro ⟨id, listed, found, derived⟩
    exact ⟨id, listed, entity, found, path, derived, rfl, rfl⟩

/-- The placements are all ways to entities with documents of their own. -/
theorem mem_placements_iff {placement : String × Entity} :
    placement ∈ catalog.placements extension ↔
      Placed catalog extension placement.1 placement.2 := by
  constructor
  · intro member
    obtain ⟨start, listed, held⟩ := List.mem_flatMap.mp member
    obtain ⟨id, inEntryPoints, found, derived⟩ := mem_entryPlaces.mp listed
    exact placed_of_mem_placementsFrom (.entryPoint inEntryPoints found derived) held
  · obtain ⟨path, entity⟩ := placement
    intro placed
    dsimp only at placed
    induction placed with
    | @entryPoint id path entity listed found derived =>
        have start : (path, entity) ∈ catalog.entryPlaces extension :=
          mem_entryPlaces.mpr ⟨id, listed, found, derived⟩
        exact List.mem_flatMap.mpr
          ⟨(path, entity), start, @mem_placementsFrom_self catalog extension path entity⟩
    | nested _ inside ih =>
        obtain ⟨start, listed, held⟩ := List.mem_flatMap.mp ih
        exact List.mem_flatMap.mpr ⟨start, listed, mem_placementsFrom_nested held inside⟩

/-- Only registered entities are placed. -/
theorem Placed.entity? (placed : Placed catalog extension path entity) :
    catalog.entity? entity.id = some entity := by
  cases placed with
  | entryPoint listed found derived =>
      obtain ⟨_, rfl⟩ := Registry.get?_eq_some_iff.mp found
      exact found
  | nested _ inside => exact Page.entity?_of_mem_nested inside

end Catalog

namespace Site

variable {catalog : Catalog} {extension language : String}

theorem visits_eq (place : Option String) (page : Page) :
    visits catalog extension place page =
      (place, page) :: page.members.flatMap fun member =>
        visits catalog extension (memberPath? catalog extension place member) member := by
  obtain ⟨id, content, headings, used, members⟩ := page
  rw [visits]
  congr 1
  induction members with
  | nil => rfl
  | cons member rest ih => rw [visitsBelow, ih, List.flatMap_cons]

/-- The pages below the page of an entity are those of the placements from it, and all of them
have places. -/
theorem visits_render (path : String) (entity : Entity) :
    visits catalog extension (some path) (Page.render catalog language entity (.of entity)) =
      (catalog.placementsFrom extension path entity).map fun placement =>
        (some placement.1, Page.render catalog language placement.2 (.of placement.2)) := by
  rw [visits_eq, Page.members_render, List.flatMap_map, Catalog.placementsFrom_eq,
    List.map_cons, List.map_flatMap]
  congr 1
  refine List.flatMap_congr fun member inside => ?_
  have place : memberPath? catalog extension (some path)
      (Page.render catalog language member (.of member)) =
        some (DocumentPath.member path member.name extension) := by
    simp [memberPath?, Identity.of, Page.entity?_of_mem_nested inside]
  have : catalog.depth member < catalog.depth entity := Page.depth_lt_of_mem_nested inside
  rw [place, visits_render _ member]
termination_by catalog.depth entity

theorem placed_map_some (placements : List (String × Entity)) (page : Entity → Page) :
    placed (placements.map fun placement => (some placement.1, page placement.2)) =
      placements.map fun placement => (placement.1, (page placement.2).alone) := by
  induction placements with
  | nil => rfl
  | cons first rest ih => rw [List.map_cons, placed, ih, List.map_cons]

end Site

namespace Manual

variable {catalog : Catalog} {options : Options}

/-- The page of an entity as a site keeps it. -/
def page (catalog : Catalog) (options : Options) (entity : Entity) : Page :=
  (Page.render catalog options.language entity (.of entity)).alone

/-- Where pages are placed when a manual is made, in order. -/
def trace (catalog : Catalog) (options : Options) : List (String × Page) :=
  (catalog.placements options.extension).map fun placement =>
    (placement.1, page catalog options placement.2)

theorem mem_trace_iff {entry : String × Page} :
    entry ∈ trace catalog options ↔
      ∃ path entity, catalog.Placed options.extension path entity ∧
        (path, page catalog options entity) = entry := by
  simp only [trace, List.mem_map, Prod.exists, Catalog.mem_placements_iff]

/-- Placing an entry point replays the placements from it. -/
theorem addEntryPoint_eq_replay {before next : Site} {id : EntityId}
    (placed : addEntryPoint catalog options before id = .ok next) :
    ∃ entity path, catalog.entity? id = some entity ∧
      DocumentPath.entry? entity.location.fileName options.extension = some path ∧
      next = before.replay ((catalog.placementsFrom options.extension path entity).map
        fun placement => (placement.1, page catalog options placement.2)) := by
  obtain ⟨entity, path, found, derived, added⟩ := Site.addEntryPoint_eq_ok placed
  refine ⟨entity, path, found, derived, ?_⟩
  rw [Site.add_eq_replay, Site.visits_render, Site.placed_map_some _ fun entity =>
    Page.render catalog options.language entity (.of entity)] at added
  exact (congrArg Prod.fst added).symm

/-- When a manual can be made, every entry point has a place, and the site is the replay of
all placements. -/
theorem site_eq_replay {built : Site} (made : site catalog options = .ok built) :
    (∀ id ∈ catalog.registry.entryPoints, ∃ entity path, catalog.entity? id = some entity ∧
      DocumentPath.entry? entity.location.fileName options.extension = some path) ∧
      built = Site.empty.replay (trace catalog options) := by
  unfold site at made
  rw [trace, Catalog.placements, Catalog.entryPlaces]
  -- The induction is over the entry points that are left, from any site.
  generalize catalog.registry.entryPoints = entryPoints at made
  generalize Site.empty = before at made
  induction entryPoints generalizing before with
  | nil =>
      cases made
      exact ⟨List.forall_mem_nil _, rfl⟩
  | cons id rest ih =>
      rw [List.foldlM_cons] at made
      cases placed : addEntryPoint catalog options before id with
      | error error =>
          rw [placed] at made
          cases made
      | ok next =>
          rw [placed] at made
          obtain ⟨entity, path, found, derived, nextEq⟩ := addEntryPoint_eq_replay placed
          obtain ⟨others, builtEq⟩ := ih next made
          refine ⟨List.forall_mem_cons.mpr ⟨⟨entity, path, found, derived⟩, others⟩, ?_⟩
          rw [builtEq, nextEq, ← Site.replay_append, ← List.map_append]
          simp [found, derived]

/-- The documents of a manual are the pages of the placements by path. -/
theorem documents_of_site {built : Site} (made : site catalog options = .ok built) :
    built.documents = Site.settled (trace catalog options) := by
  rw [(site_eq_replay made).2]
  refine Site.documents_replay fun entry member => ?_
  obtain ⟨path, entity, _, rfl⟩ := mem_trace_iff.mp member
  rfl

/-- The paths of the documents are those at which entities are placed. -/
theorem mem_paths_iff {built : Site} (made : site catalog options = .ok built)
    {path : String} :
    path ∈ built.paths ↔ ∃ entity, catalog.Placed options.extension path entity := by
  rw [(site_eq_replay made).2, Site.paths_replay, List.mem_eraseDups, List.mem_map]
  constructor
  · rintro ⟨entry, listed, rfl⟩
    obtain ⟨path, entity, placed, rfl⟩ := mem_trace_iff.mp listed
    exact ⟨entity, placed⟩
  · rintro ⟨entity, placed⟩
    exact ⟨_, mem_trace_iff.mpr ⟨path, entity, placed, rfl⟩, rfl⟩

end Manual

end ApiManual
