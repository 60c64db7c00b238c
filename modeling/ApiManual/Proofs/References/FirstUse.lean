import ApiManual.References
import Mathlib.Data.List.Basic
import Mathlib.Data.List.Induction

/-!
# Order of first use

A set of references keeps what was added in the order in which it was first added.  So does
any list from which repetitions are erased, and the two agree: adding a list to a set of
references is putting it after the set and erasing repetitions.
-/

namespace ApiManual.References

section

variable {α : Type} [DecidableEq α]

theorem nodup_eraseDups : (values : List α) → values.eraseDups.Nodup
  | [] => by simp
  | first :: rest => by
      rw [List.eraseDups_cons, List.nodup_cons]
      exact ⟨by simp [List.mem_eraseDups], nodup_eraseDups _⟩
termination_by values => values.length
decreasing_by exact Nat.lt_succ_of_le (List.length_filter_le _ _)

theorem eraseDups_of_nodup {values : List α} (nodup : values.Nodup) :
    values.eraseDups = values := by
  induction values with
  | nil => rfl
  | cons first rest ih =>
      rw [List.nodup_cons] at nodup
      have others : rest.filter (fun other => !other == first) = rest :=
        List.filter_eq_self.mpr fun other member => by
          have differs : other ≠ first := fun equal => nodup.1 (equal ▸ member)
          simpa using differs
      rw [List.eraseDups_cons, others, ih nodup.2]

/-- A value after others counts only where it is new. -/
theorem eraseDups_concat (values : List α) (last : α) :
    (values ++ [last]).eraseDups =
      if last ∈ values then values.eraseDups else values.eraseDups ++ [last] := by
  rw [List.eraseDups_append]
  by_cases old : last ∈ values
  · simp [List.removeAll, old]
  · simp [List.removeAll, old, List.eraseDups_cons]

end

/-- References that are added come after those that were there, each where it is first added. -/
theorem ids_insertAll (references : References) (ids : List EntityId) :
    (references.insertAll ids).ids = (references.ids ++ ids).eraseDups := by
  induction ids using List.reverseRecOn with
  | nil =>
      rw [List.append_nil, eraseDups_of_nodup references.nodup]
      rfl
  | append_singleton before last ih =>
      have step : references.insertAll (before ++ [last]) =
          (references.insertAll before).insert last := List.foldl_append
      rw [step, ← List.append_assoc, eraseDups_concat, ← ih]
      by_cases known : last ∈ (references.insertAll before).ids
      · rw [ids_insert_of_mem known, if_pos]
        simpa using known
      · rw [ids_insert_of_not_mem known, if_neg]
        simpa using known

theorem insertAll_append (references : References) (first second : List EntityId) :
    references.insertAll (first ++ second) = (references.insertAll first).insertAll second :=
  List.foldl_append

/-- What is known already can be added at no cost. -/
theorem insertAll_of_subset {references : References} {ids : List EntityId}
    (known : ∀ id ∈ ids, id ∈ references.ids) : references.insertAll ids = references := by
  induction ids with
  | nil => rfl
  | cons id rest ih =>
      rw [List.forall_mem_cons] at known
      have step : references.insertAll (id :: rest) = (references.insert id).insertAll rest := rfl
      rw [step, insert, dif_pos known.1, ih known.2]

end ApiManual.References
