import ApiManual.Entries
import ApiManual.Proofs.References.FirstUse

/-!
# Last values

Entries to which others are added one after the other have the names of both, each where it is
first used, and under each name the value that was added last.
-/

namespace ApiManual.Entries

variable {α β : Type} {entries : List (String × α)}

/-! ## Lookup -/

theorem lookup_map (entries : List (String × α)) (image : α → β) (name : String) :
    (entries.map fun entry => (entry.1, image entry.2)).lookup name =
      (entries.lookup name).map image := by
  induction entries with
  | nil => rfl
  | cons entry rest ih =>
      rw [List.map_cons, lookup_cons_eq_ite, lookup_cons_eq_ite, ih]
      split <;> rfl

/-- What is found from the end is in the list. -/
theorem mem_of_lookup_reverse {name : String} {value : α}
    (last : entries.reverse.lookup name = some value) : (name, value) ∈ entries := by
  obtain ⟨before, after, split, _⟩ := List.lookup_eq_some_iff.mp last
  refine List.mem_reverse.mp ?_
  rw [split]
  exact List.mem_append_right _ List.mem_cons_self

/-- Entries without repeated names are their names, each with its value. -/
theorem eq_filterMap_lookup (nodup : (entries.map (·.1)).Nodup) :
    entries = (entries.map (·.1)).filterMap fun name =>
      (entries.lookup name).map (name, ·) := by
  induction entries with
  | nil => rfl
  | cons first rest ih =>
      obtain ⟨name, value⟩ := first
      rw [List.map_cons, List.nodup_cons] at nodup
      have others : ∀ other ∈ rest.map (·.1),
          (((name, value) :: rest).lookup other).map (other, ·) =
            (rest.lookup other).map (other, ·) := by
        intro other member
        have differs : (other == name) = false :=
          beq_false_of_ne fun equal => nodup.1 (equal ▸ member)
        rw [List.lookup_cons, differs]
      rw [List.map_cons, List.filterMap_cons, List.lookup_cons_self, Option.map_some,
        List.filterMap_congr others, ← ih nodup.2]

/-! ## Adding entries -/

/-- Puts values under names, one after the other. -/
def putAll (entries added : List (String × α)) : List (String × α) :=
  added.foldl (fun entries entry => put entry.1 entry.2 entries) entries

theorem putAll_append (entries first second : List (String × α)) :
    putAll entries (first ++ second) = putAll (putAll entries first) second :=
  List.foldl_append

theorem putAll_concat (entries before : List (String × α)) (last : String × α) :
    putAll entries (before ++ [last]) = put last.1 last.2 (putAll entries before) :=
  putAll_append entries before [last]

theorem put_of_not_mem {name : String} (value : α) (fresh : name ∉ entries.map (·.1)) :
    put name value entries = entries ++ [(name, value)] := by
  induction entries with
  | nil => rfl
  | cons first rest ih =>
      obtain ⟨other, old⟩ := first
      rw [List.map_cons, List.mem_cons, not_or] at fresh
      rw [put, if_neg (Ne.symm fresh.1), ih fresh.2, List.cons_append]

/-- Entries without repeated names are as they were added. -/
theorem putAll_of_nodup {added : List (String × α)} (nodup : (added.map (·.1)).Nodup) :
    putAll [] added = added := by
  induction added using List.reverseRecOn with
  | nil => rfl
  | append_singleton before last ih =>
      rw [List.map_append, List.map_singleton, List.nodup_append] at nodup
      have fresh : last.1 ∉ before.map (·.1) := fun member =>
        nodup.2.2 last.1 member last.1 (List.mem_singleton_self _) rfl
      rw [putAll_concat, ih nodup.1, put_of_not_mem last.2 fresh]

/-- A name keeps the place at which it was first used. -/
theorem names_putAll (added : List (String × α)) :
    (putAll [] added).map (·.1) = (added.map (·.1)).eraseDups := by
  induction added using List.reverseRecOn with
  | nil => rfl
  | append_singleton before last ih =>
      rw [putAll_concat, names_put, ih, List.map_append, List.map_singleton,
        References.eraseDups_concat]
      simp only [List.mem_eraseDups]

/-- The last value of a name wins. -/
theorem lookup_putAll (added : List (String × α)) (name : String) :
    (putAll [] added).lookup name = added.reverse.lookup name := by
  induction added using List.reverseRecOn with
  | nil => rfl
  | append_singleton before last ih =>
      rw [putAll_concat, lookup_put, ih, List.reverse_append, List.reverse_singleton,
        List.singleton_append, lookup_cons_eq_ite]

end ApiManual.Entries
