import ApiManual.Proofs.TypeExpr.Styles
import ApiManual.Proofs.TypeExpr.Targets

/-!
# Where targets occur

A place in a type expression is the way down to it: the index of a part at each step.  In the
lexicographic order of places a reference comes before its arguments, and parts come from left to
right.  This is the order in which the targets of a type are recorded when the type is linked, and
the text that is made meanwhile does not depend on what has been recorded before.
-/

namespace ApiManual.TypeExpr

/-! ## Places -/

/-- The type expressions right below a type expression, from left to right. -/
def parts : TypeExpr → List TypeExpr
  | .keyword _ | .literal _ => []
  | .reference _ _ arguments => arguments
  | .array element => [element]
  | .union types | .intersection types | .tuple types => types

/-- The type expression at a place. -/
def at? (type : TypeExpr) : List Nat → Option TypeExpr
  | [] => some type
  | index :: rest => type.parts[index]?.bind (·.at? rest)

/-- The target of a type expression that is a reference. -/
def target? : TypeExpr → Option EntityId
  | .reference _ target _ => target
  | _ => none

/-- The target of the reference at a place. -/
def targetAt? (type : TypeExpr) (place : List Nat) : Option EntityId :=
  (type.at? place).bind target?

theorem targetAt?_cons (type : TypeExpr) (index : Nat) (rest : List Nat) :
    type.targetAt? (index :: rest) = type.parts[index]?.bind (·.targetAt? rest) :=
  Option.bind_assoc _ _ _

theorem sizeOf_lt_of_mem_parts {type part : TypeExpr} (inside : part ∈ type.parts) :
    sizeOf part < sizeOf type := by
  cases type with
  | keyword name => cases inside
  | literal text => cases inside
  | array element =>
      rw [List.mem_singleton.mp inside, TypeExpr.array.sizeOf_spec]
      omega
  | reference name target arguments =>
      have smaller : sizeOf part < sizeOf arguments := List.sizeOf_lt_of_mem inside
      rw [TypeExpr.reference.sizeOf_spec]
      omega
  | union types | intersection types | tuple types =>
      have smaller : sizeOf part < sizeOf types := List.sizeOf_lt_of_mem inside
      simp only [TypeExpr.union.sizeOf_spec, TypeExpr.intersection.sizeOf_spec,
        TypeExpr.tuple.sizeOf_spec]
      omega

/-- What holds of a type expression whenever it holds of its parts holds of all of them. -/
theorem induction_on_parts {holds : TypeExpr → Prop}
    (step : ∀ type, (∀ part ∈ type.parts, holds part) → holds type) (type : TypeExpr) :
    holds type :=
  step type fun part inside =>
    have := sizeOf_lt_of_mem_parts inside
    induction_on_parts step part
termination_by sizeOf type

/-! ## Occurrences of targets -/

mutual

/-- The targets of the references in a type expression, with their places. -/
def occurrences : TypeExpr → List (List Nat × EntityId)
  | .keyword _ => []
  | .reference _ target arguments => target.toList.map ([], ·) ++ occurrencesFrom 0 arguments
  | .array element => element.occurrences.map fun (place, id) => (0 :: place, id)
  | .union types => occurrencesFrom 0 types
  | .intersection types => occurrencesFrom 0 types
  | .tuple types => occurrencesFrom 0 types
  | .literal _ => []

/-- The same for parts that follow each other from an index on. -/
def occurrencesFrom (index : Nat) : List TypeExpr → List (List Nat × EntityId)
  | [] => []
  | type :: rest =>
      type.occurrences.map (fun (place, id) => (index :: place, id)) ++
        occurrencesFrom (index + 1) rest

end

theorem occurrences_eq (type : TypeExpr) :
    type.occurrences = type.target?.toList.map ([], ·) ++ occurrencesFrom 0 type.parts := by
  cases type with
  | array element => exact (List.append_nil _).symm
  | _ => rfl

theorem targets_eq (type : TypeExpr) :
    type.targets = type.target?.toList ++ targetsAll type.parts := by
  cases type with
  | array element => exact (List.append_nil _).symm
  | _ => rfl

theorem targetsAll_eq_map {types : List TypeExpr}
    (each : ∀ part ∈ types, part.targets = part.occurrences.map (·.2)) (start : Nat) :
    targetsAll types = (occurrencesFrom start types).map (·.2) := by
  induction types generalizing start with
  | nil => rfl
  | cons first rest ih =>
      rw [List.forall_mem_cons] at each
      rw [targetsAll, occurrencesFrom, List.map_append, List.map_map, each.1,
        ih each.2 (start + 1)]
      rfl

/-- The targets are those that occur, in order. -/
theorem targets_eq_map_occurrences (type : TypeExpr) :
    type.targets = type.occurrences.map (·.2) := by
  induction type using induction_on_parts with
  | step type each =>
      rw [targets_eq, occurrences_eq, List.map_append, List.map_map, targetsAll_eq_map each 0]
      congr 1
      exact (List.map_id _).symm

/-- What occurs in parts that follow each other is what occurs in one of them. -/
theorem mem_occurrencesFrom_iff {types : List TypeExpr}
    (each : ∀ part ∈ types, ∀ place id,
      (place, id) ∈ part.occurrences ↔ part.targetAt? place = some id)
    (start : Nat) (place : List Nat) (id : EntityId) :
    (place, id) ∈ occurrencesFrom start types ↔
      ∃ index rest, place = (start + index) :: rest ∧
        types[index]?.bind (·.targetAt? rest) = some id := by
  induction types generalizing start with
  | nil => simp [occurrencesFrom]
  | cons first others ih =>
      rw [List.forall_mem_cons] at each
      rw [occurrencesFrom, List.mem_append, ih each.2]
      constructor
      · intro either
        cases either with
        | inl here =>
            obtain ⟨⟨rest, id⟩, inside, same⟩ := List.mem_map.mp here
            cases same
            exact ⟨0, rest, rfl, (each.1 rest id).mp inside⟩
        | inr later =>
            obtain ⟨index, rest, placeEq, found⟩ := later
            refine ⟨index + 1, rest, ?_, found⟩
            rw [placeEq, Nat.add_assoc, Nat.add_comm 1]
      · intro occurs
        obtain ⟨index, rest, placeEq, found⟩ := occurs
        cases index with
        | zero =>
            refine .inl (List.mem_map.mpr ⟨(rest, id), (each.1 rest id).mpr found, ?_⟩)
            rw [placeEq, Nat.add_zero]
        | succ index =>
            refine .inr ⟨index, rest, ?_, found⟩
            rw [placeEq, Nat.add_assoc, Nat.add_comm 1]

/-- A target occurs at a place when the reference at the place has it. -/
theorem mem_occurrences_iff (type : TypeExpr) (place : List Nat) (id : EntityId) :
    (place, id) ∈ type.occurrences ↔ type.targetAt? place = some id := by
  induction type using induction_on_parts generalizing place id with
  | step type each =>
      rw [occurrences_eq, List.mem_append, mem_occurrencesFrom_iff each]
      cases place with
      | nil => simp [targetAt?, at?]
      | cons index rest => simp [targetAt?_cons]

theorem exists_index_of_mem_occurrencesFrom {types : List TypeExpr} {start : Nat}
    {occurrence : List Nat × EntityId} (inside : occurrence ∈ occurrencesFrom start types) :
    ∃ index rest, start ≤ index ∧ occurrence.1 = index :: rest := by
  obtain ⟨index, rest, placeEq, _⟩ := (mem_occurrencesFrom_iff
    (fun part _ => mem_occurrences_iff part) start occurrence.1 occurrence.2).mp inside
  exact ⟨start + index, rest, Nat.le_add_right _ _, placeEq⟩

theorem occurrencesFrom_ordered {types : List TypeExpr}
    (each : ∀ part ∈ types, part.occurrences.Pairwise (·.1 < ·.1)) (start : Nat) :
    (occurrencesFrom start types).Pairwise (·.1 < ·.1) := by
  induction types generalizing start with
  | nil => exact .nil
  | cons first rest ih =>
      rw [List.forall_mem_cons] at each
      rw [occurrencesFrom, List.pairwise_append]
      refine ⟨List.Pairwise.map _ (fun _ _ => .cons) each.1, ih each.2 (start + 1), ?_⟩
      intro left inFirst right inRest
      obtain ⟨_, _, rfl⟩ := List.mem_map.mp inFirst
      obtain ⟨index, below, later, placeEq⟩ := exists_index_of_mem_occurrencesFrom inRest
      rw [placeEq]
      exact .rel later

/-- Targets occur from left to right, each before those in its arguments. -/
theorem occurrences_ordered (type : TypeExpr) :
    type.occurrences.Pairwise (·.1 < ·.1) := by
  induction type using induction_on_parts with
  | step type each =>
      rw [occurrences_eq, List.pairwise_append]
      refine ⟨?_, occurrencesFrom_ordered each 0, ?_⟩
      · cases type.target? with
        | none => exact .nil
        | some id => exact List.pairwise_singleton _ _
      · intro left own right below
        obtain ⟨_, _, rfl⟩ := List.mem_map.mp own
        obtain ⟨index, rest, _, placeEq⟩ := exists_index_of_mem_occurrencesFrom below
        rw [placeEq]
        exact .nil

/-! ## What linking records -/

/-- Linking a type makes a text that does not depend on the references used before. It leaves
these as they are and adds behind them the targets of the type that are new: those of the
references at all places, in the order of the places, each where it first occurs. -/
theorem linked_records_targets (type : TypeExpr) :
    ∃ text, ∃ found : List (List Nat × EntityId),
      found.Pairwise (·.1 < ·.1) ∧
      (∀ place id, (place, id) ∈ found ↔ type.targetAt? place = some id) ∧
      ∀ used : References,
        (type.linked used).1 = text ∧
        (type.linked used).2.ids =
          used.ids ++ ((found.map (·.2)).filter (· ∉ used.ids)).eraseDups := by
  refine ⟨type.textIn .prose, type.occurrences, occurrences_ordered type,
    mem_occurrences_iff type, fun used => ⟨text_linked type used, ?_⟩⟩
  rw [recorded_linked, References.ids_insertAll, targets_eq_map_occurrences,
    List.eraseDups_append, References.eraseDups_of_nodup used.nodup]
  congr 2
  apply List.filter_congr
  intro id _
  simp

/-- A reference comes before its arguments, and what is recorded already stays where it is. -/
example :
    ((reference "Map" (some ⟨"class:Map"⟩)
        [reference "Key" (some ⟨"type:Key"⟩) [],
          union [reference "Value" (some ⟨"type:Value"⟩) [],
            reference "Map" (some ⟨"class:Map"⟩) []]]).linked (.singleton ⟨"type:Value"⟩)).2.ids =
      [⟨"type:Value"⟩, ⟨"class:Map"⟩, ⟨"type:Key"⟩] := by
  decide

end ApiManual.TypeExpr
