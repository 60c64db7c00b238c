import ApiManual.Proofs.Catalog.Ancestry
import ApiManual.Site

/-!
# Resolution of references

Resolving an identifier is a search along the chain of its ancestors: it stops
at the first one that has an anchor, and has no bound of its own.  The bound
comes from the catalog, in which every such chain ends: the search is done
after as many turns as the lineage has elements.

Nothing here depends on how a site came about, so all of it holds of every site
that any calls lead to, also when some of them fail.
-/

namespace ApiManual.Site

variable {catalog : Catalog} {site : Site}

/-- What one turn of the search finds at an identifier: an answer, or the
identifier to go on with. -/
inductive Turn where
  | done (answer : Option String)
  | goOn (parent : EntityId)
  deriving DecidableEq, Repr

/-- One turn of the search: the anchor at hand, or else on to the parent. -/
def turn (catalog : Catalog) (site : Site) (id : EntityId) : Turn :=
  match site.anchor? id with
  | some target => .done (some target)
  | none => match catalog.parent? id with
    | none => .done none
    | some parent => .goOn parent

/-- The answer of the search when it is done within so many turns. -/
def search (catalog : Catalog) (site : Site) :
    Nat → EntityId → Option (Option String)
  | 0, _ => none
  | turns + 1, id => match site.turn catalog id with
    | .done answer => some answer
    | .goOn parent => site.search catalog turns parent

/-- What resolution finds at an identifier and, where that is nothing, from its
parent on. -/
theorem resolve?_eq (id : EntityId) :
    site.resolve? catalog id = match site.turn catalog id with
      | .done answer => answer
      | .goOn parent => site.resolve? catalog parent := by
  unfold turn resolve?
  cases anchored : site.anchor? id with
  | some target =>
      cases step : catalog.parent? id with
      | none => simp [Catalog.lineage_of_parent?_eq_none step, anchored]
      | some parent => simp [Catalog.lineage_of_parent?_eq_some step, anchored]
  | none =>
      cases step : catalog.parent? id with
      | none => simp [Catalog.lineage_of_parent?_eq_none step, anchored]
      | some parent => simp [Catalog.lineage_of_parent?_eq_some step, anchored]

/-- The search is done after as many turns as the lineage is long, and its
answer is what is resolved. -/
theorem search_eq_resolve? {turns : Nat} {id : EntityId}
    (enough : (catalog.lineage id).length ≤ turns) :
    site.search catalog turns id = some (site.resolve? catalog id) := by
  induction turns generalizing id with
  | zero =>
      have never := @Catalog.isSome_ancestor?_iff catalog id 0
      simp only [Catalog.ancestor?_zero, Option.isSome_some, true_iff] at never
      omega
  | succ turns ih =>
      rw [resolve?_eq, search]
      cases found : site.turn catalog id with
      | done answer => rfl
      | goOn parent =>
          have step : catalog.parent? id = some parent := by
            unfold turn at found
            split at found
            · cases found
            · split at found <;> simp_all
          rw [Catalog.lineage_of_parent?_eq_some step, List.length_cons] at enough
          exact ih (Nat.le_of_succ_le_succ enough)

/-- What is resolved is the anchor of the first ancestor that has one. -/
theorem resolve?_eq_some_iff {id : EntityId} {target : String} :
    site.resolve? catalog id = some target ↔
      ∃ steps ancestor, catalog.ancestor? id steps = some ancestor ∧
        site.anchor? ancestor = some target ∧
        ∀ fewer < steps, ∀ nearer, catalog.ancestor? id fewer = some nearer →
          site.anchor? nearer = none := by
  rw [resolve?, List.findSome?_eq_some_iff]
  constructor
  · rintro ⟨before, ancestor, after, split, anchored, unanchored⟩
    refine ⟨before.length, ancestor, ?_, anchored, ?_⟩
    · rw [← Catalog.getElem?_lineage, split]
      simp
    · intro fewer less nearer reached
      rw [← Catalog.getElem?_lineage, split,
        List.getElem?_append_left less] at reached
      exact unanchored nearer (List.mem_of_getElem? reached)
  · rintro ⟨steps, ancestor, reached, anchored, unanchored⟩
    rw [← Catalog.getElem?_lineage] at reached
    obtain ⟨inside, rfl⟩ := List.getElem?_eq_some_iff.mp reached
    refine ⟨(catalog.lineage id).take steps, _, (catalog.lineage id).drop (steps + 1),
      ?_, anchored, ?_⟩
    · rw [List.getElem_cons_drop, List.take_append_drop]
    · intro nearer member
      obtain ⟨fewer, less, rfl⟩ := List.mem_take_iff_getElem.mp member
      apply unanchored fewer (by omega)
      rw [← Catalog.getElem?_lineage]
      simp

/-- Nothing is resolved exactly when no ancestor has an anchor. -/
theorem resolve?_eq_none_iff {id : EntityId} :
    site.resolve? catalog id = none ↔
      ∀ steps ancestor, catalog.ancestor? id steps = some ancestor →
        site.anchor? ancestor = none := by
  rw [resolve?, List.findSome?_eq_none_iff]
  constructor
  · intro unanchored steps ancestor reached
    rw [← Catalog.getElem?_lineage] at reached
    exact unanchored ancestor (List.mem_of_getElem? reached)
  · intro unanchored ancestor member
    obtain ⟨steps, reached⟩ := List.mem_iff_getElem?.mp member
    rw [Catalog.getElem?_lineage] at reached
    exact unanchored steps ancestor reached

/-- The chain of ancestors is finite, the search along it is done within as many
turns as it has elements, and it answers with the anchor of the nearest ancestor
that has one; it answers with nothing exactly when none has. -/
theorem search_finds_nearest_anchor (catalog : Catalog) (site : Site)
    (id : EntityId) :
    ∃ length ≤ catalog.registry.size + 1,
      (∀ steps, (catalog.ancestor? id steps).isSome ↔ steps < length) ∧
      site.search catalog length id = some (site.resolve? catalog id) ∧
      (∀ target, site.resolve? catalog id = some target ↔
        ∃ steps ancestor, catalog.ancestor? id steps = some ancestor ∧
          site.anchor? ancestor = some target ∧
          ∀ fewer < steps, ∀ nearer, catalog.ancestor? id fewer = some nearer →
            site.anchor? nearer = none) ∧
      (site.resolve? catalog id = none ↔
        ∀ steps ancestor, catalog.ancestor? id steps = some ancestor →
          site.anchor? ancestor = none) :=
  ⟨(catalog.lineage id).length, Catalog.length_lineage_le id,
    Catalog.isSome_ancestor?_iff id, search_eq_resolve? (Nat.le_refl _),
    fun _ => resolve?_eq_some_iff, resolve?_eq_none_iff⟩

end ApiManual.Site
