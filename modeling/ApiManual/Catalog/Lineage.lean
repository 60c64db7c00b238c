import ApiManual.Registry

/-!
# Parents and lineages

The lineage of an identifier is what is met by going from parent to parent; one
that meets an identifier twice never ends.  Lineages share their upper parts, so
the search for one that does not end stops where it meets an identifier from
which it has found an end.
-/

namespace ApiManual.Registry

/-- The first entity that lists an identifier as a member. -/
def container? (registry : Registry) (id : EntityId) : Option EntityId :=
  (registry.entities.find? (id ∈ ·.members)).map (·.id)

/-- The parent of a registered entity: the one it names, or else its container.
An identifier that is not registered has none. -/
def parent? (registry : Registry) (id : EntityId) : Option EntityId :=
  match registry.get? id with
  | none => none
  | some entity => match entity.parent with
    | some parent => some parent
    | none => registry.container? id

theorem mem_ids_of_parent? {registry : Registry} {id parent : EntityId}
    (found : registry.parent? id = some parent) : id ∈ registry.ids := by
  unfold parent? at found
  split at found
  · simp at found
  · next entity known =>
      obtain ⟨member, rfl⟩ := get?_eq_some_iff.mp known
      exact List.mem_map_of_mem member

def unvisited (registry : Registry) (path : List EntityId) : List EntityId :=
  registry.ids.filter (· ∉ path)

theorem length_unvisited_cons_lt {registry : Registry} {path : List EntityId}
    {id : EntityId} (known : id ∈ registry.ids) (fresh : id ∉ path) :
    (registry.unvisited (id :: path)).length <
      (registry.unvisited path).length := by
  have split : registry.unvisited (id :: path) =
      (registry.unvisited path).filter (· ≠ id) := by
    simp [unvisited, List.filter_filter, not_or]
  rw [split, List.length_filter_lt_length_iff_exists]
  exact ⟨id, by simp [unvisited, known, fresh], by simp⟩

theorem length_unvisited_cons_le (registry : Registry) (path : List EntityId)
    (id : EntityId) :
    (registry.unvisited (id :: path)).length ≤
      (registry.unvisited path).length := by
  have split : registry.unvisited (id :: path) =
      (registry.unvisited path).filter (· ≠ id) := by
    simp [unvisited, List.filter_filter, not_or]
  rw [split]
  exact List.length_filter_le _ _

/-- The lineage of an identifier that was reached along a path; `none` when it
meets an identifier of the path or one of its own twice. -/
def lineageFrom? (registry : Registry) (path : List EntityId) (id : EntityId) :
    Option (List EntityId) :=
  if _visited : id ∈ path then none
  else match _found : registry.parent? id with
    | none => some [id]
    | some parent =>
        (registry.lineageFrom? (id :: path) parent).map (id :: ·)
termination_by (registry.unvisited path).length
decreasing_by
  exact length_unvisited_cons_lt (mem_ids_of_parent? _found) _visited

theorem lineageFrom?_of_parent?_eq_none {registry : Registry}
    {path : List EntityId} {id : EntityId} (fresh : id ∉ path)
    (orphan : registry.parent? id = none) :
    registry.lineageFrom? path id = some [id] := by
  rw [lineageFrom?, dif_neg fresh]
  split
  · rfl
  · simp_all

theorem lineageFrom?_of_parent?_eq_some {registry : Registry}
    {path : List EntityId} {id parent : EntityId} (fresh : id ∉ path)
    (found : registry.parent? id = some parent) :
    registry.lineageFrom? path id =
      (registry.lineageFrom? (id :: path) parent).map (id :: ·) := by
  rw [lineageFrom?, dif_neg fresh]
  split
  · simp_all
  · next other otherEq =>
      obtain rfl : parent = other := by simpa [found] using otherEq
      rfl

/-- A lineage that is found does not depend on identifiers that were met
before. -/
theorem lineageFrom?_mono {registry : Registry} {path smaller : List EntityId}
    {id : EntityId} {lineage : List EntityId} (subset : smaller ⊆ path)
    (found : registry.lineageFrom? path id = some lineage) :
    registry.lineageFrom? smaller id = some lineage := by
  induction path, id using lineageFrom?.induct registry
    generalizing smaller lineage with
  | case1 path id visited => simp [lineageFrom?, visited] at found
  | case2 path id fresh orphan =>
      rw [lineageFrom?_of_parent?_eq_none fresh orphan] at found
      rw [lineageFrom?_of_parent?_eq_none (fun met => fresh (subset met)) orphan]
      exact found
  | case3 path id fresh parent parentEq ih =>
      rw [lineageFrom?_of_parent?_eq_some fresh parentEq] at found
      rw [lineageFrom?_of_parent?_eq_some (fun met => fresh (subset met)) parentEq]
      obtain ⟨rest, restEq, rfl⟩ := Option.map_eq_some_iff.mp found
      rw [ih (List.cons_subset_cons id subset) restEq]
      rfl

/-- Whether following parents from an identifier ends. -/
def LineageEnds (registry : Registry) (id : EntityId) : Prop :=
  (registry.lineageFrom? [] id).isSome

instance (registry : Registry) (id : EntityId) :
    Decidable (registry.LineageEnds id) :=
  inferInstanceAs (Decidable (_ = true))

theorem not_mem_path_of_mem_lineageFrom? {registry : Registry}
    {path lineage : List EntityId} {id later : EntityId}
    (found : registry.lineageFrom? path id = some lineage)
    (met : later ∈ lineage) : later ∉ path := by
  induction path, id using lineageFrom?.induct registry generalizing lineage with
  | case1 path id visited => simp [lineageFrom?, visited] at found
  | case2 path id fresh orphan =>
      rw [lineageFrom?_of_parent?_eq_none fresh orphan] at found
      cases found
      rw [List.mem_singleton] at met
      exact met ▸ fresh
  | case3 path id fresh parent step ih =>
      rw [lineageFrom?_of_parent?_eq_some fresh step] at found
      obtain ⟨rest, restEq, rfl⟩ := Option.map_eq_some_iff.mp found
      rcases List.mem_cons.mp met with rfl | inRest
      · exact fresh
      · exact fun onPath => ih restEq inRest (List.mem_cons_of_mem id onPath)

/-- A lineage that is found ends from each of its identifiers on. -/
theorem lineageEnds_of_mem_lineageFrom? {registry : Registry}
    {path lineage : List EntityId} {id later : EntityId}
    (found : registry.lineageFrom? path id = some lineage)
    (met : later ∈ lineage) : registry.LineageEnds later := by
  induction path, id using lineageFrom?.induct registry generalizing lineage with
  | case1 path id visited => simp [lineageFrom?, visited] at found
  | case2 path id fresh orphan =>
      rw [lineageFrom?_of_parent?_eq_none fresh orphan] at found
      cases found
      rw [List.mem_singleton] at met
      subst met
      rw [LineageEnds, lineageFrom?_of_parent?_eq_none (by simp) orphan]
      rfl
  | case3 path id fresh parent step ih =>
      have whole := lineageFrom?_mono (List.nil_subset path) found
      rw [lineageFrom?_of_parent?_eq_some fresh step] at found
      obtain ⟨rest, restEq, rfl⟩ := Option.map_eq_some_iff.mp found
      rcases List.mem_cons.mp met with rfl | inRest
      · exact Option.isSome_of_eq_some whole
      · exact ih restEq inRest

/-- A lineage can be found along any path that it does not meet. -/
theorem lineageFrom?_of_forall_not_mem {registry : Registry}
    {path other lineage : List EntityId} {id : EntityId}
    (found : registry.lineageFrom? path id = some lineage)
    (apart : ∀ later ∈ lineage, later ∉ other) :
    registry.lineageFrom? other id = some lineage := by
  induction path, id using lineageFrom?.induct registry
    generalizing lineage other with
  | case1 path id visited => simp [lineageFrom?, visited] at found
  | case2 path id fresh orphan =>
      rw [lineageFrom?_of_parent?_eq_none fresh orphan] at found
      cases found
      exact lineageFrom?_of_parent?_eq_none (apart id (by simp)) orphan
  | case3 path id fresh parent step ih =>
      rw [lineageFrom?_of_parent?_eq_some fresh step] at found
      obtain ⟨rest, restEq, rfl⟩ := Option.map_eq_some_iff.mp found
      have onward : registry.lineageFrom? (id :: other) parent = some rest := by
        apply ih restEq
        intro later met
        have past := not_mem_path_of_mem_lineageFrom? restEq met
        rw [List.mem_cons, not_or] at past ⊢
        exact ⟨past.1, apart later (List.mem_cons_of_mem id met)⟩
      rw [lineageFrom?_of_parent?_eq_some (apart id (by simp)) step, onward]
      rfl

theorem LineageEnds.of_parent? {registry : Registry} {id parent : EntityId}
    (step : registry.parent? id = some parent)
    (ends : registry.LineageEnds parent) : registry.LineageEnds id := by
  obtain ⟨lineage, found⟩ := Option.isSome_iff_exists.mp ends
  by_cases met : id ∈ lineage
  · exact lineageEnds_of_mem_lineageFrom? found met
  · have onward : registry.lineageFrom? [id] parent = some lineage := by
      apply lineageFrom?_of_forall_not_mem found
      intro later inside
      rw [List.mem_singleton]
      exact fun equal => met (equal ▸ inside)
    rw [LineageEnds, lineageFrom?_of_parent?_eq_some (by simp) step, onward]
    rfl

theorem parent?_of_not_mem {registry : Registry} {id : EntityId}
    (unknown : id ∉ registry.ids) : registry.parent? id = none := by
  cases found : registry.parent? id with
  | none => rfl
  | some parent => exact absurd (mem_ids_of_parent? found) unknown

/-! ## The search for a lineage that does not end -/

/-- Goes up from an identifier that was reached along a path, until it meets one
that is settled or has no parent. Yields the path with all that was met on the
way; `none` when an identifier of the path is met again. -/
def climb? (registry : Registry) (settled path : List EntityId)
    (id : EntityId) : Option (List EntityId) :=
  if id ∈ settled then some path
  else if _visited : id ∈ path then none
  else match _found : registry.parent? id with
    | none => some (id :: path)
    | some parent => registry.climb? settled (id :: path) parent
termination_by (registry.unvisited path).length
decreasing_by
  exact length_unvisited_cons_lt (mem_ids_of_parent? _found) _visited

/-- The first of some identifiers whose lineage does not end. What was met on the
way up from one of them is settled for those after it. -/
def firstEndless? (registry : Registry) (settled : List EntityId) :
    List EntityId → Option EntityId
  | [] => none
  | id :: rest =>
      match registry.climb? settled [] id with
      | none => some id
      | some met => registry.firstEndless? (met ++ settled) rest

theorem climb?_of_parent?_eq_none {registry : Registry}
    {settled path : List EntityId} {id : EntityId} (unsettled : id ∉ settled)
    (fresh : id ∉ path) (orphan : registry.parent? id = none) :
    registry.climb? settled path id = some (id :: path) := by
  rw [climb?, if_neg unsettled, dif_neg fresh]
  split
  · rfl
  · simp_all

theorem climb?_of_parent?_eq_some {registry : Registry}
    {settled path : List EntityId} {id parent : EntityId}
    (unsettled : id ∉ settled) (fresh : id ∉ path)
    (step : registry.parent? id = some parent) :
    registry.climb? settled path id =
      registry.climb? settled (id :: path) parent := by
  rw [climb?, if_neg unsettled, dif_neg fresh]
  split
  · simp_all
  · next other otherEq =>
      obtain rfl : parent = other := by simpa [step] using otherEq
      rfl

/-- Going up from an identifier fails only when its lineage cannot be found. -/
theorem lineageFrom?_of_climb?_eq_none {registry : Registry}
    {settled path : List EntityId} {id : EntityId}
    (failed : registry.climb? settled path id = none) :
    registry.lineageFrom? path id = none := by
  induction path, id using climb?.induct registry settled with
  | case1 path id known => simp [climb?, known] at failed
  | case2 path id unsettled visited => simp [lineageFrom?, visited]
  | case3 path id unsettled fresh orphan =>
      rw [climb?_of_parent?_eq_none unsettled fresh orphan] at failed
      cases failed
  | case4 path id unsettled fresh parent step ih =>
      rw [climb?_of_parent?_eq_some unsettled fresh step] at failed
      rw [lineageFrom?_of_parent?_eq_some fresh step, ih failed]
      rfl

/-- Where going up comes to an end, what was met has a lineage that ends, provided
that what is settled has. -/
theorem ends_of_climb?_eq_some {registry : Registry}
    {settled path met : List EntityId} {id : EntityId}
    (known : ∀ other ∈ settled, registry.LineageEnds other)
    (found : registry.climb? settled path id = some met) :
    registry.LineageEnds id ∧
      ∀ other ∈ met, other ∈ path ∨ registry.LineageEnds other := by
  induction path, id using climb?.induct registry settled with
  | case1 path id isSettled =>
      rw [climb?, if_pos isSettled] at found
      cases found
      exact ⟨known id isSettled, fun _ => .inl⟩
  | case2 path id unsettled visited => simp [climb?, unsettled, visited] at found
  | case3 path id unsettled fresh orphan =>
      rw [climb?_of_parent?_eq_none unsettled fresh orphan] at found
      cases found
      have ends : registry.LineageEnds id := by
        rw [LineageEnds, lineageFrom?_of_parent?_eq_none (by simp) orphan]
        rfl
      refine ⟨ends, fun other inMet => ?_⟩
      rcases List.mem_cons.mp inMet with rfl | onPath
      · exact .inr ends
      · exact .inl onPath
  | case4 path id unsettled fresh parent step ih =>
      rw [climb?_of_parent?_eq_some unsettled fresh step] at found
      obtain ⟨parentEnds, each⟩ := ih found
      have ends : registry.LineageEnds id := .of_parent? step parentEnds
      refine ⟨ends, fun other inMet => ?_⟩
      rcases each other inMet with onPath | otherEnds
      · rcases List.mem_cons.mp onPath with rfl | earlier
        · exact .inr ends
        · exact .inl earlier
      · exact .inr otherEnds

/-- Settling what was met hides no lineage that does not end: the search finds the
first of all. -/
theorem firstEndless?_eq_find? {registry : Registry} {settled ids : List EntityId}
    (known : ∀ other ∈ settled, registry.LineageEnds other) :
    registry.firstEndless? settled ids =
      ids.find? fun id => !decide (registry.LineageEnds id) := by
  induction ids generalizing settled with
  | nil => rfl
  | cons id rest ih =>
      cases climbed : registry.climb? settled [] id with
      | none =>
          have endless : ¬ registry.LineageEnds id := by
            rw [LineageEnds, lineageFrom?_of_climb?_eq_none climbed]
            simp
          simp [firstEndless?, climbed, endless]
      | some met =>
          obtain ⟨ends, each⟩ := ends_of_climb?_eq_some known climbed
          have metEnds : ∀ other ∈ met ++ settled, registry.LineageEnds other := by
            intro other inEither
            rcases List.mem_append.mp inEither with inMet | inSettled
            · exact (each other inMet).resolve_left List.not_mem_nil
            · exact known other inSettled
          simp [firstEndless?, climbed, ends, ih metEnds]

end ApiManual.Registry
