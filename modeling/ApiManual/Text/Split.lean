/-! # Cutting text at a character -/

namespace ApiManual.Text

/-- The characters before and after the first mark, when there is one. -/
def splitFirst? (mark : Char) : List Char → Option (List Char × List Char)
  | [] => none
  | char :: rest =>
      if char = mark then some ([], rest)
      else (splitFirst? mark rest).map fun (before, after) =>
        (char :: before, after)

/-- The characters before and after the last mark, when there is one. -/
def splitLast? (mark : Char) : List Char → Option (List Char × List Char)
  | [] => none
  | char :: rest =>
      match splitLast? mark rest with
      | some (before, after) => some (char :: before, after)
      | none => if char = mark then some ([], rest) else none

/-- The pieces between marks, of which there is one more than there are
marks. -/
def pieces (mark : Char) : List Char → List (List Char)
  | [] => [[]]
  | char :: rest =>
      if char = mark then [] :: pieces mark rest
      else match pieces mark rest with
        | [] => [[char]]
        | piece :: later => (char :: piece) :: later

theorem splitFirst?_eq_none_iff {mark : Char} {chars : List Char} :
    splitFirst? mark chars = none ↔ mark ∉ chars := by
  induction chars with
  | nil => simp [splitFirst?]
  | cons char rest ih =>
      by_cases equal : char = mark
      · simp [splitFirst?, equal]
      · simp [splitFirst?, equal, ih, Ne.symm equal]

/-- The first mark stands between what comes before it, without marks, and what
comes after it. -/
theorem splitFirst?_eq_some_iff {mark : Char} {chars before after : List Char} :
    splitFirst? mark chars = some (before, after) ↔
      chars = before ++ mark :: after ∧ mark ∉ before := by
  induction chars generalizing before with
  | nil => simp [splitFirst?]
  | cons char rest ih =>
      by_cases equal : char = mark
      · subst equal
        cases before with
        | nil => simp [splitFirst?]
        | cons first before => simp +contextual [splitFirst?]
      · cases before with
        | nil => simp [splitFirst?, equal]
        | cons first before =>
            simp only [splitFirst?, equal, if_false, Option.map_eq_some_iff,
              Prod.exists, Prod.mk.injEq, List.cons.injEq]
            constructor
            · rintro ⟨_, _, found, ⟨rfl, rfl⟩, rfl⟩
              obtain ⟨whole, clean⟩ := ih.mp found
              exact ⟨by simp [whole], by simp [clean, Ne.symm equal]⟩
            · rintro ⟨whole, clean⟩
              simp only [List.cons_append, List.cons.injEq] at whole
              obtain ⟨rfl, whole⟩ := whole
              exact ⟨before, after,
                ih.mpr ⟨whole, fun member => clean (by simp [member])⟩, ⟨rfl, rfl⟩, rfl⟩

theorem splitLast?_eq_none_iff {mark : Char} {chars : List Char} :
    splitLast? mark chars = none ↔ mark ∉ chars := by
  induction chars with
  | nil => simp [splitLast?]
  | cons char rest ih =>
      cases found : splitLast? mark rest with
      | none =>
          have clean := ih.mp found
          by_cases equal : char = mark
          · simp [splitLast?, found, equal]
          · simp [splitLast?, found, equal, clean, Ne.symm equal]
      | some parts =>
          have held : mark ∈ rest := by
            refine Decidable.not_not.mp fun clean => ?_
            rw [ih.mpr clean] at found
            cases found
          simp [splitLast?, found, held]

/-- The last mark stands between what comes before it and what comes after it,
without marks. -/
theorem splitLast?_eq_some {mark : Char} {chars before after : List Char}
    (found : splitLast? mark chars = some (before, after)) :
    chars = before ++ mark :: after ∧ mark ∉ after := by
  induction chars generalizing before with
  | nil => simp [splitLast?] at found
  | cons char rest ih =>
      cases later : splitLast? mark rest with
      | none =>
          by_cases equal : char = mark
          · simp only [splitLast?, later, equal, if_true, Option.some.injEq,
              Prod.mk.injEq] at found
            obtain ⟨rfl, rfl⟩ := found
            exact ⟨by simp [equal], splitLast?_eq_none_iff.mp later⟩
          · simp [splitLast?, later, equal] at found
      | some parts =>
          obtain ⟨front, back⟩ := parts
          simp only [splitLast?, later, Option.some.injEq, Prod.mk.injEq] at found
          obtain ⟨rfl, rfl⟩ := found
          obtain ⟨whole, clean⟩ := ih later
          exact ⟨by simp [whole], clean⟩

/-- A mark that no other follows is the last one. -/
theorem splitLast?_append {mark : Char} {after : List Char} (clean : mark ∉ after)
    (before : List Char) :
    splitLast? mark (before ++ mark :: after) = some (before, after) := by
  induction before with
  | nil => simp [splitLast?, splitLast?_eq_none_iff.mpr clean]
  | cons char before ih => simp [splitLast?, ih]

/-- The pieces are what the list is split into at every mark. -/
theorem pieces_eq_splitOn (mark : Char) (chars : List Char) :
    pieces mark chars = chars.splitOn mark := by
  induction chars with
  | nil => rfl
  | cons char rest ih =>
      rw [List.splitOn, List.splitOnP_cons_eq_if_modifyHead]
      by_cases equal : char = mark
      · simp [pieces, equal, ih, List.splitOn]
      · simp only [pieces, equal, ih, List.splitOn, beq_iff_eq, if_false]
        cases others : List.splitOnP (· == mark) rest with
        | nil => exact absurd others (List.splitOnP_ne_nil _ _)
        | cons piece later => rfl

theorem not_mem_of_mem_pieces {mark : Char} {chars piece : List Char}
    (member : piece ∈ pieces mark chars) : mark ∉ piece := by
  induction chars generalizing piece with
  | nil => simp_all [pieces]
  | cons char rest ih =>
      by_cases equal : char = mark
      · simp only [pieces, equal, if_true, List.mem_cons] at member
        rcases member with rfl | later
        · simp
        · exact ih later
      · cases others : pieces mark rest with
        | nil =>
            simp only [pieces, equal, others, if_false, List.mem_singleton] at member
            subst member
            simp [Ne.symm equal]
        | cons first later =>
            simp only [pieces, equal, others, if_false, List.mem_cons] at member
            rcases member with rfl | inLater
            · have clean : mark ∉ first := ih (by simp [others])
              simp [clean, Ne.symm equal]
            · exact ih (by simp [others, inLater])

theorem mem_of_mem_pieces {mark char : Char} {chars piece : List Char}
    (member : piece ∈ pieces mark chars) (inside : char ∈ piece) : char ∈ chars := by
  induction chars generalizing piece with
  | nil => simp_all [pieces]
  | cons first rest ih =>
      rw [pieces_eq_splitOn, List.splitOn, List.splitOnP_cons_eq_if_modifyHead,
        ← List.splitOn, ← pieces_eq_splitOn] at member
      split at member
      · rcases List.mem_cons.mp member with rfl | later
        · simp at inside
        · exact List.mem_cons_of_mem _ (ih later inside)
      · cases others : pieces mark rest with
        | nil => simp [others] at member
        | cons head later =>
            rw [others] at ih
            rw [others, List.modifyHead_cons, List.mem_cons] at member
            rcases member with rfl | inLater
            · rcases List.mem_cons.mp inside with rfl | inHead
              · exact List.mem_cons_self
              · exact List.mem_cons_of_mem _ (ih List.mem_cons_self inHead)
            · exact List.mem_cons_of_mem _ (ih (List.mem_cons_of_mem _ inLater) inside)

end ApiManual.Text
