import ApiManual.Proofs.Catalog.Ancestry
import ApiManual.Proofs.Catalog.EntityOrder
import ApiManual.Proofs.Page.Locality
import ApiManual.Proofs.Site.Settling

/-!
# The order of entities does not matter

A manual is made by asking its catalog for three things: entities by identifier, parents, and the
list of entry points.  Catalogs with the same answers give the same manual, step by step: the same
page for every entity, the same site, the same documents and warnings.

Registering the same entities in another order keeps these answers as long as no entity without a
parent of its own is listed by two containers.
-/

namespace ApiManual

namespace Catalog

variable {first second : Catalog}

/-- Two catalogs with the same entities, parents and entry points. -/
structure Alike (first second : Catalog) : Prop where
  entities : ∀ id, first.entity? id = second.entity? id
  parents : ∀ id, first.parent? id = second.parent? id
  entryPoints : first.registry.entryPoints = second.registry.entryPoints

namespace Alike

theorem kind? (alike : first.Alike second) (id : EntityId) : first.kind? id = second.kind? id := by
  rw [Catalog.kind?, Catalog.kind?, alike.entities]

theorem ancestor? (alike : first.Alike second) (id : EntityId) (steps : Nat) :
    first.ancestor? id steps = second.ancestor? id steps := by
  induction steps generalizing id with
  | zero => rfl
  | succ steps ih => simp only [Catalog.ancestor?, alike.parents, ih]

theorem lineage (alike : first.Alike second) (id : EntityId) :
    first.lineage id = second.lineage id := by
  apply List.ext_getElem?
  intro steps
  rw [getElem?_lineage, getElem?_lineage, alike.ancestor?]

/-- The order that a catalog carries as evidence is no answer to anything. -/
theorem of_registry_eq (same : first.registry = second.registry) : first.Alike second := by
  refine { entities := ?_, parents := ?_, entryPoints := congrArg _ same }
  · intro id
    exact congrArg (Registry.get? · id) same
  · intro id
    exact congrArg (Registry.parent? · id) same

/-- Catalogs that are alike share everything. -/
theorem share (alike : first.Alike second) : first.Share second fun _ => True where
  same := fun id _ => alike.entities id
  closed := fun _ _ _ _ _ _ => trivial

end Alike

end Catalog

open Catalog (Alike)

variable {first second : Catalog}

namespace Page

theorem render_eq_of_alike (alike : first.Alike second) (language : String) (entity : Entity)
    (identity : Identity) :
    render first language entity identity = render second language entity identity :=
  render_eq_of_share alike.share entity (fun _ _ => trivial) identity

end Page

namespace Contents

variable {page : Page}

theorem entries_eq_of_alike (alike : first.Alike second) :
    entries first page = entries second page := by
  simp only [entries, grouped, headingsIn, alike.kind?]

theorem lines_eq_of_alike (alike : first.Alike second) : lines first page = lines second page := by
  rw [lines, lines, entries_eq_of_alike alike]

theorem linkedIds_eq_of_alike (alike : first.Alike second) :
    linkedIds first page = linkedIds second page := by
  rw [linkedIds, linkedIds, entries_eq_of_alike alike]

end Contents

namespace Site

variable {extension : String} {site : Site}

mutual

theorem add_eq_of_alike (alike : first.Alike second) (path : String) (site : Site) :
    (page : Page) → add first extension path site page = add second extension path site page
  | ⟨id, content, headings, used, members⟩ => by
      rw [add_eq, add_eq]
      exact addMembers_eq_of_alike alike path _ members

/-- Members are placed under the names of their entities. -/
theorem addMembers_eq_of_alike (alike : first.Alike second) (path : String) (site : Site) :
    (members : List Page) →
      addMembers first extension path site members = addMembers second extension path site members
  | [] => rfl
  | member :: rest => by
      rw [addMembers, addMembers, alike.entities]
      cases second.entity? member.id with
      | none => rfl
      | some entity =>
          dsimp only
          rw [add_eq_of_alike alike _ site member]
          split
          · rfl
          · exact addMembers_eq_of_alike alike path _ rest

end

theorem addEntry_eq_of_alike (alike : first.Alike second) (page : Page) :
    addEntry first extension site page = addEntry second extension site page := by
  simp only [addEntry, alike.entities, add_eq_of_alike alike]

/-- What is resolved depends on the site and on parents. -/
theorem resolve?_eq_of_alike (alike : first.Alike second) (id : EntityId) :
    site.resolve? first id = site.resolve? second id := by
  rw [resolve?, resolve?, alike.lineage]

variable {showContents : Bool}

theorem settledAlike_of_alike (alike : first.Alike second) (page : Page) :
    SettledAlike first second showContents showContents site site page where
  referred := by rw [references, references, Contents.linkedIds_eq_of_alike alike]
  resolved := resolve?_eq_of_alike alike

theorem output_eq_of_alike (alike : first.Alike second) :
    site.output first showContents = site.output second showContents := by
  have documentAt : site.documentAt first showContents = site.documentAt second showContents := by
    funext path page
    exact (settledAlike_of_alike alike page).documentAt (Contents.lines_eq_of_alike alike)
      alike.entities path
  rw [output, output, documentAt]

end Site

namespace Manual

variable {options : Options}

theorem site_eq_of_alike (alike : first.Alike second) : site first options = site second options := by
  have step : addEntryPoint first options = addEntryPoint second options := by
    funext site id
    simp only [addEntryPoint, alike.entities, Page.render_eq_of_alike alike,
      Site.addEntry_eq_of_alike alike]
  rw [site, site, step, alike.entryPoints]

/-- Catalogs that are alike give the same manual, or fail with the same error. -/
theorem generate_eq_of_alike (alike : first.Alike second) (options : Options) :
    generate first options = generate second options := by
  simp only [generate, site_eq_of_alike alike, Site.output_eq_of_alike alike]

/-- Registries with the same entities in any order and with the same entry points are both refused
or both accepted, provided that at most one entity lists an entity that names no parent. When they
are accepted, they give the same documents in the same order and the same warnings in the same
order, or the same error. -/
theorem generate_eq_of_reordered {first second : Registry}
    (reordered : first.entities.Perm second.entities)
    (entryPoints : first.entryPoints = second.entryPoints) (single : first.SingleContainers) :
    (∃ fault otherFault, Catalog.ofRegistry first = .error fault ∧
      Catalog.ofRegistry second = .error otherFault) ∨
    ∃ catalog other, Catalog.ofRegistry first = .ok catalog ∧
      Catalog.ofRegistry second = .ok other ∧
      ∀ options, generate catalog options = generate other options := by
  have together := Catalog.ofRegistry_accepts_iff_of_perm reordered single
  cases firstEq : Catalog.ofRegistry first with
  | error fault =>
      cases secondEq : Catalog.ofRegistry second with
      | error otherFault => exact .inl ⟨fault, otherFault, rfl, rfl⟩
      | ok other =>
          obtain ⟨catalog, accepted⟩ := together.mpr ⟨other, secondEq⟩
          rw [firstEq] at accepted
          cases accepted
  | ok catalog =>
      obtain ⟨other, accepted⟩ := together.mp ⟨catalog, firstEq⟩
      refine .inr ⟨catalog, other, rfl, accepted, ?_⟩
      -- Each catalog holds its registry, so it gives the answers of that one.
      obtain rfl := Catalog.registry_eq_of_ofRegistry firstEq
      obtain rfl := Catalog.registry_eq_of_ofRegistry accepted
      apply generate_eq_of_alike
      exact {
        entities := Registry.get?_eq_of_perm reordered
        parents := Registry.parent?_eq_of_perm reordered single
        entryPoints }

/-- The shapes with the containers registered after what they list. -/
def reversedShapes : Registry where
  entities := (geometry "Shape").reverse
  entryPoints := [⟨"file:geometry"⟩]
  ids_nodup := by decide
  entryPoints_registered := by decide

/-- The shapes are accepted in both orders, and give the same manual. -/
theorem generate_eq_of_reversedShapes :
    shapes.registry.entities.Perm reversedShapes.entities ∧ shapes.registry.SingleContainers ∧
      ∃ catalog other, Catalog.ofRegistry shapes.registry = .ok catalog ∧
        Catalog.ofRegistry reversedShapes = .ok other ∧
        (generate catalog .default).isOk = true ∧
        generate catalog .default = generate other .default := by
  have reversed : shapes.registry.entities.Perm reversedShapes.entities :=
    (List.reverse_perm (geometry "Shape")).symm
  have single : shapes.registry.SingleContainers := by decide
  refine ⟨reversed, single, ?_⟩
  cases generate_eq_of_reordered reversed rfl single with
  | inl refused =>
      obtain ⟨fault, _, failed, _⟩ := refused
      obtain ⟨catalog, accepted⟩ := Catalog.accepts_registry shapes
      rw [failed] at accepted
      cases accepted
  | inr both =>
      obtain ⟨catalog, other, accepted, otherAccepted, same⟩ := both
      have alike : catalog.Alike shapes :=
        .of_registry_eq (Catalog.registry_eq_of_ofRegistry accepted)
      refine ⟨catalog, other, accepted, otherAccepted, ?_, same .default⟩
      rw [generate_eq_of_alike alike]
      decide +kernel

end Manual

end ApiManual
