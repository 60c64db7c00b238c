import ApiManual.Catalog.Lineage

/-!
# The order of membership

A list in which every identifier comes before its members is evidence that no
container is its own member.  A depth-first walk over the members finds such a
list or meets an identifier that it is still below.  The place of an identifier
in the list bounds how deep containers can nest.
-/

namespace ApiManual.Registry

def membersOf (registry : Registry) (id : EntityId) : List EntityId :=
  match registry.get? id with
  | none => []
  | some entity => entity.members

theorem membersOf_of_get? {registry : Registry} {id : EntityId}
    {entity : Entity} (found : registry.get? id = some entity) :
    registry.membersOf id = entity.members := by
  simp [membersOf, found]

theorem mem_ids_of_mem_membersOf {registry : Registry} {id member : EntityId}
    (listed : member ∈ registry.membersOf id) : id ∈ registry.ids := by
  unfold membersOf at listed
  split at listed
  · simp at listed
  · next entity found =>
      obtain ⟨registered, rfl⟩ := get?_eq_some_iff.mp found
      exact List.mem_map_of_mem registered

/-- A list without repetition in which the members of each identifier come
somewhere after it. -/
inductive ContainersFirst (registry : Registry) : List EntityId → Prop where
  | nil : ContainersFirst registry []
  | cons {id : EntityId} {rest : List EntityId}
      (fresh : id ∉ rest)
      (members : ∀ member ∈ registry.membersOf id, member ∈ rest)
      (tail : ContainersFirst registry rest) :
      ContainersFirst registry (id :: rest)

/-- How many identifiers a list holds from a given one on; zero when it does not
hold that one. -/
def heightIn : List EntityId → EntityId → Nat
  | [], _ => 0
  | first :: rest, id =>
      if first = id then rest.length + 1 else heightIn rest id

theorem heightIn_le_length (order : List EntityId) (id : EntityId) :
    heightIn order id ≤ order.length := by
  induction order with
  | nil => simp [heightIn]
  | cons first rest ih =>
      simp only [heightIn, List.length_cons]
      split <;> omega

namespace ContainersFirst

/-- The members of what an ordered list holds are held by it. -/
theorem mem_of_mem {registry : Registry} {order : List EntityId}
    (ordered : registry.ContainersFirst order) {id member : EntityId}
    (held : id ∈ order) (listed : member ∈ registry.membersOf id) :
    member ∈ order := by
  induction ordered with
  | nil => simp at held
  | cons fresh members tail ih =>
      rcases List.mem_cons.mp held with rfl | later
      · exact List.mem_cons_of_mem _ (members member listed)
      · exact List.mem_cons_of_mem _ (ih later)

theorem heightIn_lt {registry : Registry} {order : List EntityId}
    (ordered : registry.ContainersFirst order) {id member : EntityId}
    (held : id ∈ order) (listed : member ∈ registry.membersOf id) :
    heightIn order member < heightIn order id := by
  induction ordered with
  | nil => simp at held
  | @cons first rest fresh members tail ih =>
      rcases List.mem_cons.mp held with rfl | later
      · have below := members member listed
        have different : id ≠ member := fun equal => fresh (equal ▸ below)
        have bound := heightIn_le_length rest member
        simp only [heightIn, different, if_true, if_false]
        omega
      · have below := tail.mem_of_mem later listed
        have notMember : first ≠ member := fun equal => fresh (equal ▸ below)
        have notId : first ≠ id := fun equal => fresh (equal ▸ later)
        simpa [heightIn, notMember, notId] using ih later

end ContainersFirst

/-- Walks over identifiers and all that is below them, adding each in front of
`settled` after its members. The walk is below the identifiers of `path`; it
fails with the first one of them that it meets again. -/
def settle (registry : Registry) (path settled : List EntityId) :
    List EntityId → Except EntityId (List EntityId)
  | [] => .ok settled
  | id :: rest =>
      if _onPath : id ∈ path then .error id
      else if id ∈ settled then registry.settle path settled rest
      else match registry.settle (id :: path) settled (registry.membersOf id) with
        | .error again => .error again
        | .ok below => registry.settle path (id :: below) rest
termination_by ids => ((registry.unvisited path).length, ids.length)
decreasing_by
  · exact Prod.Lex.right _ (by simp)
  · cases members : registry.membersOf id with
    | nil =>
        rcases Nat.lt_or_eq_of_le (length_unvisited_cons_le registry path id)
          with fewer | equal
        · exact Prod.Lex.left _ _ fewer
        · rw [equal]
          exact Prod.Lex.right _ (by simp)
    | cons member others =>
        have known : id ∈ registry.ids :=
          mem_ids_of_mem_membersOf (members ▸ List.mem_cons_self)
        exact Prod.Lex.left _ _ (length_unvisited_cons_lt known _onPath)
  · exact Prod.Lex.right _ (by simp)

/-- What a walk that succeeds has settled: an ordered list that holds all it did
before and all that was asked for, and nothing of the path that it did not hold
before. -/
theorem settle_eq_ok {registry : Registry} {path settled ids result : List EntityId}
    (ordered : registry.ContainersFirst settled)
    (done : registry.settle path settled ids = .ok result) :
    registry.ContainersFirst result ∧ settled ⊆ result ∧ ids ⊆ result ∧
      ∀ id ∈ path, id ∉ settled → id ∉ result := by
  induction path, settled, ids using settle.induct registry
    generalizing result with
  | case1 path settled =>
      rw [settle] at done
      cases done
      exact ⟨ordered, List.Subset.refl _, by simp, fun _ _ absent => absent⟩
  | case2 path settled id rest onPath =>
      rw [settle, dif_pos onPath] at done
      cases done
  | case3 path settled id rest notOnPath known ih =>
      rw [settle, dif_neg notOnPath, if_pos known] at done
      obtain ⟨resultOrdered, kept, asked, absent⟩ := ih ordered done
      exact ⟨resultOrdered, kept,
        List.cons_subset.mpr ⟨kept known, asked⟩, absent⟩
  | case4 path settled id rest notOnPath fresh again failed =>
      rw [settle, dif_neg notOnPath, if_neg fresh, failed] at done
      cases done
  | case5 path settled id rest notOnPath fresh below belowEq ihBelow ihRest =>
      rw [settle, dif_neg notOnPath, if_neg fresh, belowEq] at done
      obtain ⟨belowOrdered, belowKept, members, belowAbsent⟩ :=
        ihBelow ordered belowEq
      have idAbsent : id ∉ below := belowAbsent id (by simp) fresh
      obtain ⟨resultOrdered, kept, asked, absent⟩ :=
        ihRest (.cons idAbsent (fun member listed => members listed) belowOrdered) done
      refine ⟨resultOrdered, fun other held => kept (by simp [belowKept held]),
        List.cons_subset.mpr ⟨kept (by simp), asked⟩, ?_⟩
      intro other onPath otherFresh
      apply absent other onPath
      rw [List.mem_cons, not_or]
      exact ⟨fun equal => notOnPath (equal ▸ onPath),
        belowAbsent other (by simp [onPath]) otherFresh⟩

/-- All registered identifiers in an order in which containers come before
their members, or an identifier that is its own member through a chain of
containers. -/
def containersFirst (registry : Registry) :
    Except EntityId (List EntityId) :=
  registry.settle [] [] registry.ids

end ApiManual.Registry
