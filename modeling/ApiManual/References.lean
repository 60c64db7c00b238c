import ApiManual.EntityId

/-! # Sets of references, in the order of first use -/

namespace ApiManual

/-- Identifiers without repetition, in the order in which they were added. -/
structure References where
  ids : List EntityId
  nodup : ids.Nodup
  deriving DecidableEq

namespace References

def empty : References := ⟨[], .nil⟩

instance : Inhabited References := ⟨empty⟩

/-- Adds an identifier after the others, unless it is there already. -/
def insert (references : References) (id : EntityId) : References :=
  if known : id ∈ references.ids then references
  else {
    ids := references.ids ++ [id]
    nodup := by
      rw [List.nodup_append]
      refine ⟨references.nodup, by simp, ?_⟩
      intro other member last lastEq equal
      rw [List.mem_singleton] at lastEq
      exact known (lastEq ▸ equal ▸ member) }

def insertAll (references : References) (ids : List EntityId) : References :=
  ids.foldl insert references

/-- The set of the identifiers in a list, in the order of first occurrence. -/
def ofList (ids : List EntityId) : References := empty.insertAll ids

def singleton (id : EntityId) : References := empty.insert id

theorem ids_insert_of_mem {references : References} {id : EntityId}
    (known : id ∈ references.ids) : (references.insert id).ids = references.ids := by
  simp [insert, known]

theorem ids_insert_of_not_mem {references : References} {id : EntityId}
    (fresh : id ∉ references.ids) :
    (references.insert id).ids = references.ids ++ [id] := by
  simp [insert, fresh]

@[simp] theorem mem_ids_insert {references : References} {id other : EntityId} :
    other ∈ (references.insert id).ids ↔ other ∈ references.ids ∨ other = id := by
  by_cases known : id ∈ references.ids
  · rw [ids_insert_of_mem known]
    constructor
    · exact .inl
    · rintro (member | rfl)
      · exact member
      · exact known
  · simp [ids_insert_of_not_mem known]

@[simp] theorem mem_ids_insertAll {references : References}
    {ids : List EntityId} {other : EntityId} :
    other ∈ (references.insertAll ids).ids ↔
      other ∈ references.ids ∨ other ∈ ids := by
  unfold insertAll
  induction ids generalizing references with
  | nil => simp
  | cons id rest ih => simp [ih, or_assoc]

end References

end ApiManual
