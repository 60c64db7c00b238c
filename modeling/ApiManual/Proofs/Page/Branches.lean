import ApiManual.Proofs.Manual.Placements
import Mathlib.Data.List.Chain
import Mathlib.Data.List.Nodup
import Mathlib.Data.List.Perm.Subperm

/-!
# How deep pages nest

Rendering an entity renders the members that get pages of their own, and so on down.  It follows
identifiers, not a structure, and ends because no entity of a catalog is its own member: every
step goes down in the order in which containers come before their members.  So no way down from
a page meets an entity twice, and none is longer than the catalog.
-/

namespace ApiManual.Page

/-- A way down from a page to a page without members. -/
inductive Branch : Page → List Page → Prop where
  | leaf {page : Page} (bottom : page.members = []) : Branch page [page]
  | down {page member : Page} {rest : List Page} (inside : member ∈ page.members)
      (below : Branch member rest) : Branch page (page :: rest)

variable {catalog : Catalog} {language : String} {entity : Entity} {identity : Identity}

/-- Nesting has no endless descent. -/
theorem nested_wellFounded (catalog : Catalog) :
    WellFounded fun member container => member ∈ nested catalog container :=
  Subrelation.wf depth_lt_of_mem_nested (InvImage.wf catalog.depth Nat.lt_wfRel.wf)

/-- A way down nests from entity to entity, and each of them is rendered under its own name. -/
theorem Branch.exists_rendered {pages : List Page}
    (branch : (render catalog language entity identity).Branch pages) :
    ∃ rendered : List Entity,
      pages = render catalog language entity identity ::
        rendered.map (fun member => render catalog language member (.of member)) ∧
      (entity :: rendered).IsChain fun container member => member ∈ nested catalog container := by
  generalize root : render catalog language entity identity = page at branch
  induction branch generalizing entity identity with
  | leaf => exact ⟨[], rfl, .singleton _⟩
  | @down page child rest inside _ ih =>
      subst root
      rw [members_render] at inside
      obtain ⟨member, nests, rfl⟩ := List.mem_map.mp inside
      obtain ⟨rendered, rfl, chain⟩ := ih rfl
      exact ⟨member :: rendered, rfl, .cons_cons nests chain⟩

variable {rendered : List Entity}

/-- Entities that nest one in the other are different. -/
theorem nodup_of_isChain
    (chain : (entity :: rendered).IsChain fun container member =>
      member ∈ nested catalog container) : (entity :: rendered).Nodup := by
  have falling : ((entity :: rendered).map catalog.depth).IsChain (· > ·) := by
    rw [List.isChain_map]
    exact chain.imp fun _ _ => depth_lt_of_mem_nested
  have apart : ((entity :: rendered).map catalog.depth).Nodup :=
    falling.pairwise.imp Nat.ne_of_gt
  exact apart.of_map _

/-- What is nested is registered. -/
theorem entity?_of_isChain
    (chain : (entity :: rendered).IsChain fun container member =>
      member ∈ nested catalog container) :
    ∀ member ∈ rendered, catalog.entity? member.id = some member := by
  induction rendered generalizing entity with
  | nil => simp
  | cons first rest ih =>
      obtain ⟨nests, onward⟩ := List.isChain_cons_cons.mp chain
      rw [List.forall_mem_cons]
      exact ⟨entity?_of_mem_nested nests, ih onward⟩

/-- Different registered entities are told apart by their identifiers, and there are no more of
them than the catalog has. -/
theorem nodup_ids_of_registered
    (registered : ∀ member ∈ rendered, catalog.entity? member.id = some member)
    (nodup : rendered.Nodup) :
    (rendered.map (·.id)).Nodup ∧ rendered.length ≤ catalog.registry.size := by
  have apart : (rendered.map (·.id)).Nodup := by
    refine nodup.map_on fun left leftHeld right rightHeld same => ?_
    have found := registered left leftHeld
    rw [same, registered right rightHeld] at found
    exact (Option.some.inj found).symm
  have within : rendered.map (·.id) ⊆ catalog.registry.ids := by
    intro id held
    obtain ⟨member, inside, rfl⟩ := List.mem_map.mp held
    exact List.mem_map_of_mem (Registry.get?_eq_some_iff.mp (registered member inside)).1
  have bound := (apart.subperm within).length_le
  rw [List.length_map, Registry.ids, List.length_map] at bound
  exact ⟨apart, bound⟩

/-- Only source files and namespaces have pages of members below their own. -/
theorem isModule_of_members_ne_nil
    (nests : (render catalog language entity identity).members ≠ []) :
    entity.kind = .sourceFile ∨ entity.kind = .nameSpace := by
  rw [members_render, ne_eq, List.map_eq_nil_iff] at nests
  obtain ⟨member, inside⟩ := List.exists_mem_of_ne_nil _ nests
  have module : entity.kind.isModule := (mem_nested_iff.mp inside).1
  revert module
  cases entity.kind <;> decide

/-- Rendering goes on to the entities that are nested in the one at hand, which is well-founded,
under every identity and also for an entity that is not registered. No way down from a page
renders an entity twice; so it is no longer than the catalog, not counting the entity at its top
when that one is not registered. What has pages below it is a source file or a namespace. -/
theorem nesting_is_bounded (catalog : Catalog) (language : String) :
    (WellFounded fun member container => member ∈ nested catalog container) ∧
      ∀ (entity : Entity) (identity : Identity),
        (render catalog language entity identity).members =
            (nested catalog entity).map (fun member =>
              render catalog language member (.of member)) ∧
          ((render catalog language entity identity).members ≠ [] →
            entity.kind = .sourceFile ∨ entity.kind = .nameSpace) ∧
          ∀ pages, (render catalog language entity identity).Branch pages →
            ∃ rendered : List Entity,
              pages = render catalog language entity identity ::
                rendered.map (fun member => render catalog language member (.of member)) ∧
              (entity :: rendered).Nodup ∧ rendered.length ≤ catalog.registry.size ∧
              (catalog.entity? entity.id = some entity →
                ((entity :: rendered).map (·.id)).Nodup ∧
                  pages.length ≤ catalog.registry.size) := by
  refine ⟨nested_wellFounded catalog, fun entity identity =>
    ⟨members_render catalog language entity identity, isModule_of_members_ne_nil, ?_⟩⟩
  intro pages branch
  obtain ⟨rendered, rfl, chain⟩ := branch.exists_rendered
  have registered := entity?_of_isChain chain
  have nodup := nodup_of_isChain chain
  refine ⟨rendered, rfl, nodup, (nodup_ids_of_registered registered nodup.of_cons).2, ?_⟩
  intro known
  have all : ∀ member ∈ entity :: rendered, catalog.entity? member.id = some member :=
    List.forall_mem_cons.mpr ⟨known, registered⟩
  obtain ⟨apart, bound⟩ := nodup_ids_of_registered all nodup
  rw [List.length_cons, List.length_map]
  exact ⟨apart, bound⟩

/-- A container of an atlas. -/
def sheet (id name : String) (declaration : Declaration) : Entity where
  id := ⟨id⟩
  name := name
  parent := none
  location := ⟨"src/atlas.ts", 1, 1⟩
  doc := none
  declaration := declaration

/-- A source file with a namespace in a namespace, and a class at the bottom. -/
def atlas : Catalog where
  registry := {
    entities := [
      sheet "file:atlas" "atlas" (.sourceFile [⟨"namespace:maps"⟩]),
      sheet "namespace:maps" "maps" (.nameSpace [⟨"namespace:coasts"⟩]),
      sheet "namespace:coasts" "coasts" (.nameSpace [⟨"class:Harbour"⟩]),
      sheet "class:Harbour" "Harbour" (.classType [] none [] [] false)]
    entryPoints := [⟨"file:atlas"⟩]
    ids_nodup := by decide
    entryPoints_registered := by decide }
  references_registered := by decide
  lineages_end := by decide +kernel
  order := [⟨"file:atlas"⟩, ⟨"namespace:maps"⟩, ⟨"namespace:coasts"⟩, ⟨"class:Harbour"⟩]
  order_containersFirst :=
    .cons (by decide) (by decide) (.cons (by decide) (by decide)
      (.cons (by decide) (by decide) (.cons (by decide) (by decide) .nil)))
  order_complete := by decide

/-- The way down to the class passes all four entities, and no way down is longer. -/
theorem nesting_of_atlas_is_bounded :
    let file := sheet "file:atlas" "atlas" (.sourceFile [⟨"namespace:maps"⟩])
    (∃ pages, (render atlas "ts" file (.of file)).Branch pages ∧
        pages.map (·.id) = [⟨"file:atlas"⟩, ⟨"namespace:maps"⟩, ⟨"namespace:coasts"⟩,
          ⟨"class:Harbour"⟩]) ∧
      ∀ pages, (render atlas "ts" file (.of file)).Branch pages → pages.length ≤ 4 := by
  intro file
  constructor
  · let maps := sheet "namespace:maps" "maps" (.nameSpace [⟨"namespace:coasts"⟩])
    let coasts := sheet "namespace:coasts" "coasts" (.nameSpace [⟨"class:Harbour"⟩])
    let harbour := sheet "class:Harbour" "Harbour" (.classType [] none [] [] false)
    have inFile : nested atlas file = [maps] := rfl
    have inMaps : nested atlas maps = [coasts] := rfl
    have inCoasts : nested atlas coasts = [harbour] := rfl
    have inHarbour : nested atlas harbour = [] := rfl
    refine ⟨[render atlas "ts" file (.of file), render atlas "ts" maps (.of maps),
      render atlas "ts" coasts (.of coasts), render atlas "ts" harbour (.of harbour)], ?_, ?_⟩
    · refine .down ?_ (.down ?_ (.down ?_ (.leaf ?_))) <;> rw [members_render]
      · simp [inFile]
      · simp [inMaps]
      · simp [inCoasts]
      · simp [inHarbour]
    · simp only [List.map_cons, id_render]
      rfl
  · intro pages branch
    obtain ⟨_, _, _, _, bounded⟩ := ((nesting_is_bounded atlas "ts").2 file (.of file)).2.2
      pages branch
    exact (bounded rfl).2

end ApiManual.Page
