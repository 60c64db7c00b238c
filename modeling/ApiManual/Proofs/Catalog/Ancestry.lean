import ApiManual.Catalog

/-!
# The ancestors of an identifier

The chain of an identifier, its parent, the parent of that one, and so on, by
the number of steps taken.  In a catalog the chain is finite: the lineage lists
exactly its elements in order, and it has at most one element more than there
are registered entities, since only its last element can be unregistered.
-/

namespace ApiManual

/-- A lineage that was found along a path has at most one element more than
there are identifiers left to visit. -/
theorem Registry.length_le_of_lineageFrom? {registry : Registry}
    {path : List EntityId} {id : EntityId} {lineage : List EntityId}
    (found : registry.lineageFrom? path id = some lineage) :
    lineage.length ≤ (registry.unvisited path).length + 1 := by
  induction path, id using lineageFrom?.induct registry generalizing lineage with
  | case1 path id visited => simp [lineageFrom?, visited] at found
  | case2 path id fresh orphan =>
      rw [lineageFrom?_of_parent?_eq_none fresh orphan] at found
      cases found
      simp
  | case3 path id fresh parent step ih =>
      rw [lineageFrom?_of_parent?_eq_some fresh step] at found
      obtain ⟨rest, restEq, rfl⟩ := Option.map_eq_some_iff.mp found
      have bound := ih restEq
      have fewer := length_unvisited_cons_lt (mem_ids_of_parent? step) fresh
      rw [List.length_cons]
      omega

namespace Catalog

variable {catalog : Catalog}

/-- What is reached from an identifier by so many steps to the parent; nothing
when the chain ends before that. -/
def ancestor? (catalog : Catalog) : EntityId → Nat → Option EntityId
  | id, 0 => some id
  | id, steps + 1 =>
      (catalog.parent? id).bind fun parent => catalog.ancestor? parent steps

@[simp] theorem ancestor?_zero (id : EntityId) :
    catalog.ancestor? id 0 = some id := rfl

/-- The elements of a lineage are the ancestors, counted in steps. -/
theorem getElem?_lineage (id : EntityId) (steps : Nat) :
    (catalog.lineage id)[steps]? = catalog.ancestor? id steps := by
  induction steps generalizing id with
  | zero =>
      cases step : catalog.parent? id with
      | none => simp [lineage_of_parent?_eq_none step]
      | some parent => simp [lineage_of_parent?_eq_some step]
  | succ steps ih =>
      cases step : catalog.parent? id with
      | none => simp [lineage_of_parent?_eq_none step, ancestor?, step]
      | some parent => simp [lineage_of_parent?_eq_some step, ancestor?, step, ih]

/-- A lineage holds at most one unregistered identifier. -/
theorem length_lineage_le (id : EntityId) :
    (catalog.lineage id).length ≤ catalog.registry.size + 1 := by
  have bound :=
    Registry.length_le_of_lineageFrom? (catalog.lineageFrom?_eq_lineage id)
  have whole : catalog.registry.unvisited [] = catalog.registry.ids :=
    List.filter_eq_self.mpr (by simp)
  rwa [whole, Registry.ids, List.length_map] at bound

/-- The chain ends where the lineage does. -/
theorem isSome_ancestor?_iff (id : EntityId) (steps : Nat) :
    (catalog.ancestor? id steps).isSome ↔ steps < (catalog.lineage id).length := by
  rw [← getElem?_lineage]
  simp

end Catalog

end ApiManual
