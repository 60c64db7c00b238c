/-! # Values under names, in the order in which the names were first used -/

namespace ApiManual.Entries

variable {α : Type}

/-- Entries with a value under a name, in the place of the one that was there or
else at the end. -/
def put (name : String) (value : α) : List (String × α) → List (String × α)
  | [] => [(name, value)]
  | (other, old) :: rest =>
      if other = name then (name, value) :: rest
      else (other, old) :: put name value rest

theorem mem_put {name : String} {value : α} {entries : List (String × α)}
    {entry : String × α} (member : entry ∈ put name value entries) :
    entry = (name, value) ∨ entry ∈ entries := by
  induction entries with
  | nil => simpa [put] using member
  | cons first rest ih =>
      obtain ⟨other, old⟩ := first
      by_cases equal : other = name
      · rw [put, if_pos equal, List.mem_cons] at member
        exact member.imp_right (List.mem_cons_of_mem _)
      · rw [put, if_neg equal, List.mem_cons] at member
        rcases member with rfl | later
        · exact .inr List.mem_cons_self
        · exact (ih later).imp_right (List.mem_cons_of_mem _)

theorem names_put (name : String) (value : α) (entries : List (String × α)) :
    (put name value entries).map (·.1) =
      if name ∈ entries.map (·.1) then entries.map (·.1)
      else entries.map (·.1) ++ [name] := by
  induction entries with
  | nil => simp [put]
  | cons first rest ih =>
      obtain ⟨other, old⟩ := first
      by_cases equal : other = name
      · simp [put, equal]
      · simp only [put, equal, if_false, List.map_cons, ih, List.mem_cons,
          Ne.symm equal, false_or]
        split <;> rfl

theorem mem_names_put {name other : String} {value : α}
    {entries : List (String × α)} :
    other ∈ (put name value entries).map (·.1) ↔
      other = name ∨ other ∈ entries.map (·.1) := by
  rw [names_put]
  split
  · next known => exact ⟨.inr, fun either => either.elim (· ▸ known) id⟩
  · rw [List.mem_append, List.mem_singleton, or_comm]

theorem lookup_cons_eq_ite (name : String) (value : α)
    (rest : List (String × α)) (sought : String) :
    ((name, value) :: rest).lookup sought =
      if sought = name then some value else rest.lookup sought := by
  rw [List.lookup_cons]
  split
  · next same => rw [if_pos (eq_of_beq same)]
  · next differs => rw [if_neg (ne_of_beq_false differs)]

theorem lookup_put (name other : String) (value : α)
    (entries : List (String × α)) :
    (put name value entries).lookup other =
      if other = name then some value else entries.lookup other := by
  induction entries with
  | nil => simp [put, lookup_cons_eq_ite]
  | cons first rest ih =>
      obtain ⟨known, old⟩ := first
      by_cases equal : known = name
      · simp only [put, equal, if_true, lookup_cons_eq_ite]
        split <;> rfl
      · simp only [put, equal, if_false, lookup_cons_eq_ite, ih]
        by_cases same : other = known
        · simp [same, equal]
        · simp [same]

end ApiManual.Entries
