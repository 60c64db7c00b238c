import ApiManual.Text.Lines
import ApiManual.Text.Split
import Mathlib.Data.List.DropRight
import Mathlib.Data.List.Forall2
import Mathlib.Data.List.Induction

/-!
# Cutting text into lines

Text without line feeds begins the first line of what follows it.  Hence lines that are joined
by line feeds are read back, but for one empty line at the end: it leaves no trace in the text.
-/

namespace ApiManual.Text

/-! ## Line by line -/

/-- Lines with text put before the first of them. -/
def startLine (front : List Char) : List (List Char) → List (List Char)
  | [] => [front]
  | line :: later => (front ++ line) :: later

theorem linesOf_cons {char : Char} {rest : List Char} (inLine : char ≠ '\n')
    (noEnd : ∀ after, char = '\r' → rest ≠ '\n' :: after) :
    linesOf (char :: rest) = startLine [char] (linesOf rest) := by
  rw [linesOf.eq_4 _ _ inLine noEnd]
  cases linesOf rest with
  | nil => rfl
  | cons line later => rfl

/-- Text without line feeds begins the first line of what follows it. -/
theorem linesOf_append {front rest : List Char} {char : Char} (oneLine : '\n' ∉ front)
    (inLine : char ≠ '\n') (noReturn : char ≠ '\r') :
    linesOf (front ++ char :: rest) = startLine (front ++ [char]) (linesOf rest) := by
  induction front with
  | nil =>
      apply linesOf_cons inLine
      intro _ isReturn
      exact absurd isReturn noReturn
  | cons first front ih =>
      rw [List.mem_cons, not_or] at oneLine
      rw [List.cons_append, linesOf_cons (Ne.symm oneLine.1), ih oneLine.2]
      · cases linesOf rest with
        | nil => rfl
        | cons line later => simp [startLine]
      · intro after _ equal
        cases front with
        | nil =>
            rw [List.nil_append, List.cons.injEq] at equal
            exact inLine equal.1
        | cons second front =>
            rw [List.cons_append, List.cons.injEq] at equal
            exact oneLine.2 (List.mem_cons.mpr (.inl equal.1.symm))

/-! ## Joined lines -/

/-- Text that can be a line: no line feed ends it early, and no carriage return at its end would
belong to the line end. -/
structure IsLine (line : List Char) : Prop where
  oneLine : '\n' ∉ line
  noReturn : line.getLast? ≠ some '\r'

instance (line : List Char) : Decidable (IsLine line) :=
  decidable_of_iff ('\n' ∉ line ∧ line.getLast? ≠ some '\r')
    ⟨fun both => ⟨both.1, both.2⟩, fun isLine => ⟨isLine.oneLine, isLine.noReturn⟩⟩

theorem linesOf_of_not_mem {line : List Char} (oneLine : '\n' ∉ line) :
    linesOf line = if line = [] then [] else [line] := by
  induction line with
  | nil => rfl
  | cons char rest ih =>
      rw [List.mem_cons, not_or] at oneLine
      have noEnd : ∀ after, char = '\r' → rest ≠ '\n' :: after := by
        rintro after _ rfl
        exact oneLine.2 List.mem_cons_self
      rw [linesOf_cons (Ne.symm oneLine.1) noEnd, ih oneLine.2]
      cases rest with
      | nil => rfl
      | cons second later => simp [startLine]

theorem IsLine.linesOf_append {line : List Char} (isLine : IsLine line) (rest : List Char) :
    linesOf (line ++ '\n' :: rest) = line :: linesOf rest := by
  obtain ⟨oneLine, noReturn⟩ := isLine
  induction line with
  | nil => exact linesOf.eq_2 rest
  | cons char later ih =>
      rw [List.mem_cons, not_or] at oneLine
      rw [List.cons_append, linesOf_cons (Ne.symm oneLine.1), ih oneLine.2]
      · rfl
      · intro last
        apply noReturn
        cases later with
        | nil => cases last
        | cons second later => rwa [List.getLast?_cons_cons]
      · intro after isReturn equal
        cases later with
        | nil => exact noReturn (by rw [isReturn]; rfl)
        | cons second later =>
            rw [List.cons_append, List.cons.injEq] at equal
            exact oneLine.2 (List.mem_cons.mpr (.inl equal.1.symm))

/-- Joined lines are read back, but for an empty last line. -/
theorem linesOf_intercalate {lines : List (List Char)} (each : ∀ line ∈ lines, IsLine line) :
    lines = linesOf (['\n'].intercalate lines) ∨
      lines = linesOf (['\n'].intercalate lines) ++ [[]] := by
  induction lines with
  | nil => exact .inl rfl
  | cons first rest ih =>
      rw [List.forall_mem_cons] at each
      cases rest with
      | nil =>
          rw [List.intercalate_singleton, linesOf_of_not_mem each.1.oneLine]
          by_cases nothing : first = []
          · exact .inr (by rw [if_pos nothing, nothing]; rfl)
          · exact .inl (by rw [if_neg nothing])
      | cons second later =>
          have cut : linesOf (['\n'].intercalate (first :: second :: later)) =
              first :: linesOf (['\n'].intercalate (second :: later)) := by
            rw [List.intercalate_cons_cons, List.append_assoc]
            exact each.1.linesOf_append _
          rw [cut, List.cons_append, List.cons.injEq, List.cons.injEq]
          exact (ih each.2).imp (⟨rfl, ·⟩) (⟨rfl, ·⟩)

theorem intercalate_concat {α : Type} {separator : List α} {parts : List (List α)}
    (some : parts ≠ []) (last : List α) :
    separator.intercalate (parts ++ [last]) =
      separator.intercalate parts ++ (separator ++ last) := by
  induction parts with
  | nil => exact absurd rfl some
  | cons first rest ih =>
      cases rest with
      | nil => simp
      | cons second later =>
          have more := ih (List.cons_ne_nil _ _)
          rw [List.cons_append] at more
          rw [List.cons_append, List.cons_append, List.intercalate_cons_cons, more,
            List.intercalate_cons_cons, List.append_assoc, List.append_assoc, List.append_assoc]

theorem prefix_intercalate {α : Type} (separator first : List α) (rest : List (List α)) :
    first <+: separator.intercalate (first :: rest) := by
  cases rest with
  | nil =>
      have single : separator.intercalate [first] = first := List.intercalate_singleton
      exact single.symm ▸ List.prefix_refl first
  | cons second later =>
      rw [List.intercalate_cons_cons, List.append_assoc]
      exact List.prefix_append first _

/-- What comes first in the first of several parts comes first in all of them. -/
theorem head?_intercalate {α : Type} {separator first : List α} (some : first ≠ [])
    (rest : List (List α)) : (separator.intercalate (first :: rest)).head? = first.head? := by
  obtain ⟨head, tail, rfl⟩ := List.exists_cons_of_ne_nil some
  obtain ⟨later, whole⟩ := prefix_intercalate separator (head :: tail) rest
  rw [← whole, List.cons_append, List.head?_cons, List.head?_cons]

/-- What comes last in the last of several parts comes last in all of them. -/
theorem getLast?_intercalate {α : Type} {separator last : List α} (some : last ≠ [])
    (before : List (List α)) :
    (separator.intercalate (before ++ [last])).getLast? = last.getLast? := by
  by_cases nothing : before = []
  · rw [nothing, List.nil_append, List.intercalate_singleton]
  · rw [intercalate_concat nothing, ← List.append_assoc, List.getLast?_append,
      List.getLast?_eq_some_getLast some, Option.some_or]

theorem toList_joined_ofList (separator : String) (lines : List (List Char)) :
    (joined separator (lines.map String.ofList)).toList = separator.toList.intercalate lines := by
  rw [joined, String.toList_intercalate, List.map_map]
  simp

/-! ## Pieces -/

theorem pieces_ne_nil {mark : Char} (chars : List Char) : pieces mark chars ≠ [] := by
  rw [pieces_eq_splitOn]
  exact List.splitOnP_ne_nil _ _

/-- Pieces are put together again by the mark between them. -/
theorem intercalate_pieces (mark : Char) (chars : List Char) :
    [mark].intercalate (pieces mark chars) = chars := by
  rw [pieces_eq_splitOn, List.intercalate_splitOn]

/-- Joined lines are the pieces between line feeds, when there is a line. -/
theorem pieces_joined {lines : List (List Char)} (some : lines ≠ [])
    (each : ∀ line ∈ lines, '\n' ∉ line) :
    pieces '\n' (joined "\n" (lines.map String.ofList)).toList = lines := by
  rw [toList_joined_ofList, pieces_eq_splitOn]
  exact List.splitOn_intercalate _ each some

/-! ## Dropped ends -/

section

variable {α : Type} {drop : α → Bool} {last : α}

theorem dropBoth_eq (drop : α → Bool) (values : List α) :
    dropBoth drop values = (values.dropWhile drop).rdropWhile drop := rfl

theorem dropBoth_sublist (drop : α → Bool) (values : List α) :
    (dropBoth drop values).Sublist values :=
  (List.rdropWhile_prefix drop _).sublist.trans (List.dropWhile_sublist drop)

/-- Nothing is dropped exactly when nothing is to be dropped at either end. -/
theorem dropBoth_eq_self_iff {values : List α} :
    dropBoth drop values = values ↔
      (∀ first ∈ values.head?, drop first = false) ∧
        ∀ last ∈ values.getLast?, drop last = false := by
  constructor
  · intro same
    have atEnd := List.rdropWhile_prefix drop (values.dropWhile drop)
    rw [← dropBoth_eq, same] at atEnd
    have atStart : values.dropWhile drop = values :=
      (List.dropWhile_sublist drop).antisymm atEnd.sublist
    rw [dropBoth_eq, atStart, List.rdropWhile_eq_self_iff] at same
    refine ⟨fun first isFirst => ?_, fun last isLast => ?_⟩
    · obtain ⟨rest, rfl⟩ := List.head?_eq_some_iff.mp isFirst
      exact Bool.eq_false_iff.mpr (List.dropWhile_eq_self_iff.mp atStart (Nat.succ_pos _))
    · obtain ⟨some, rfl⟩ := List.mem_getLast?_eq_getLast isLast
      exact Bool.eq_false_iff.mpr (same some)
  · rintro ⟨first, last⟩
    have atStart : values.dropWhile drop = values := by
      cases values with
      | nil => rfl
      | cons value rest => exact List.dropWhile_cons_of_neg (by simp [first value rfl])
    rw [dropBoth_eq, atStart, List.rdropWhile_eq_self_iff]
    exact fun some => Bool.eq_false_iff.mp (last _ (List.getLast_mem_getLast? some))

theorem dropBoth_concat (dropped : drop last = true) (values : List α) :
    dropBoth drop (values ++ [last]) = dropBoth drop values := by
  rw [dropBoth_eq, dropBoth_eq, List.dropWhile_append]
  split
  · next nothing =>
      rw [List.isEmpty_iff.mp nothing, List.dropWhile_cons_of_pos dropped]
      rfl
  · exact List.rdropWhile_concat_pos drop _ last dropped

end

/-! ## Lines and pieces -/

theorem pieces_append_cons (mark : Char) (left right : List Char) :
    pieces mark (left ++ mark :: right) = pieces mark left ++ pieces mark right := by
  simp only [pieces_eq_splitOn, List.splitOn]
  exact List.splitOnP_append_cons _ _ (by simp)

theorem pieces_cons_of_ne {mark char : Char} (inPiece : char ≠ mark) (rest : List Char) :
    pieces mark (char :: rest) = (pieces mark rest).modifyHead (char :: ·) := by
  rw [pieces_eq_splitOn, List.splitOn, List.splitOnP_cons_eq_if_modifyHead,
    if_neg (by simpa using inPiece), ← List.splitOn, ← pieces_eq_splitOn]

/-- Marks that are dropped from the end take empty pieces with them. -/
theorem isPrefix_pieces_rdropWhile (mark : Char) (chars : List Char) :
    pieces mark (chars.rdropWhile (· = mark)) <+: pieces mark chars := by
  induction chars using List.reverseRecOn with
  | nil => exact List.prefix_refl _
  | append_singleton chars last ih =>
      by_cases dropped : last = mark
      · subst dropped
        rw [List.rdropWhile_concat_pos _ _ _ (by simp), pieces_append_cons]
        exact ih.trans (List.prefix_append _ _)
      · exact ⟨[], by
          rw [List.rdropWhile_concat_neg _ _ _ (by simpa using dropped), List.append_nil]⟩

theorem isSuffix_pieces_dropWhile (mark : Char) (chars : List Char) :
    pieces mark (chars.dropWhile (· = mark)) <:+ pieces mark chars := by
  induction chars with
  | nil => exact List.suffix_refl _
  | cons first rest ih =>
      by_cases dropped : first = mark
      · rw [List.dropWhile_cons_of_pos (by simpa using dropped), pieces, if_pos dropped]
        exact ih.trans (List.suffix_cons _ _)
      · exact ⟨[], by rw [List.dropWhile_cons_of_neg (by simpa using dropped), List.nil_append]⟩

/-- Dropping marks at the ends leaves no piece that was not there. -/
theorem mem_pieces_of_mem_dropBoth {mark : Char} {chars piece : List Char}
    (member : piece ∈ pieces mark (dropBoth (· = mark) chars)) : piece ∈ pieces mark chars :=
  (isSuffix_pieces_dropWhile mark chars).subset ((isPrefix_pieces_rdropWhile mark _).subset member)

/-- A line is a piece between line feeds, without the carriage return that belongs to the line
end. -/
def IsLineOf (line piece : List Char) : Prop := piece = line ∨ piece = line ++ ['\r']

theorem IsLineOf.cons {line piece : List Char} (isLine : IsLineOf line piece) (char : Char) :
    IsLineOf (char :: line) (char :: piece) :=
  isLine.imp (congrArg (char :: ·)) (congrArg (char :: ·))

/-- The lines are the pieces between line feeds, one by one, but for an empty last piece. -/
theorem forall₂_linesOf_pieces (chars : List Char) :
    ∃ last, (last = [] ∨ last = [[]]) ∧
      List.Forall₂ IsLineOf (linesOf chars ++ last) (pieces '\n' chars) := by
  fun_induction linesOf chars with
  | case1 => exact ⟨[[]], .inr rfl, .cons (.inl rfl) .nil⟩
  | case2 rest ih =>
      obtain ⟨last, atEnd, lines⟩ := ih
      refine ⟨last, atEnd, ?_⟩
      rw [pieces, if_pos rfl]
      exact .cons (.inl rfl) lines
  | case3 rest ih =>
      obtain ⟨last, atEnd, lines⟩ := ih
      refine ⟨last, atEnd, ?_⟩
      have cut : pieces '\n' ('\n' :: rest) = [] :: pieces '\n' rest := by rw [pieces, if_pos rfl]
      rw [pieces_cons_of_ne (by decide), cut, List.modifyHead_cons]
      exact .cons (.inr rfl) lines
  | case4 char rest inLine _ noLines ih =>
      obtain ⟨last, atEnd, lines⟩ := ih
      rw [noLines] at lines
      -- There is a piece even where there is no line, so it is the empty one at the end.
      rcases atEnd with rfl | rfl
      · exact absurd (List.forall₂_nil_left_iff.mp lines) (pieces_ne_nil rest)
      · obtain ⟨piece, later, isLine, none, cut⟩ := List.forall₂_cons_left_iff.mp lines
        rw [List.forall₂_nil_left_iff.mp none] at cut
        refine ⟨[], .inl rfl, ?_⟩
        rw [pieces_cons_of_ne inLine, cut, List.modifyHead_cons]
        exact .cons (isLine.cons char) .nil
  | case5 char rest inLine _ line later lines ih =>
      obtain ⟨last, atEnd, lined⟩ := ih
      rw [lines, List.cons_append] at lined
      obtain ⟨piece, others, isLine, behind, cut⟩ := List.forall₂_cons_left_iff.mp lined
      refine ⟨last, atEnd, ?_⟩
      rw [pieces_cons_of_ne inLine, cut, List.modifyHead_cons]
      exact .cons (isLine.cons char) behind

/-- Every line is a piece between line feeds, or becomes one by a carriage return. -/
theorem exists_piece_of_mem_linesOf {chars line : List Char} (member : line ∈ linesOf chars) :
    ∃ piece ∈ pieces '\n' chars, IsLineOf line piece := by
  obtain ⟨last, _, lines⟩ := forall₂_linesOf_pieces chars
  obtain ⟨place, within, found⟩ := List.mem_iff_getElem.mp (List.mem_append_left last member)
  rw [← found]
  have inPieces : place < (pieces '\n' chars).length := by rwa [← lines.length_eq]
  exact ⟨_, List.getElem_mem inPieces, lines.get within inPieces⟩

/-! ## Joined lines without empty ends -/

/-- Nothing is dropped from joined lines when nothing is to be dropped from the first and the last
of them. -/
theorem dropBoth_joined {drop : Char → Bool} {lines : List String}
    (first : ∀ line ∈ lines.head?, line ≠ "" ∧ ∀ char ∈ line.toList.head?, drop char = false)
    (last : ∀ line ∈ lines.getLast?, line ≠ "" ∧ ∀ char ∈ line.toList.getLast?, drop char = false) :
    dropBoth drop (joined "\n" lines).toList = (joined "\n" lines).toList := by
  rw [joined, String.toList_intercalate, dropBoth_eq_self_iff]
  constructor
  · cases lines with
    | nil => simp
    | cons line rest =>
        obtain ⟨some, kept⟩ := first line rfl
        rw [List.map_cons, head?_intercalate (by simpa using some)]
        exact kept
  · rcases List.eq_nil_or_concat lines with rfl | ⟨before, line, rfl⟩
    · simp
    · rw [List.concat_eq_append] at last ⊢
      obtain ⟨some, kept⟩ := last line List.getLast?_concat
      rw [List.map_append, List.map_singleton, getLast?_intercalate (by simpa using some)]
      exact kept

/-- An empty last line is dropped with the line feed before it. -/
theorem dropBoth_joined_concat {drop : Char → Bool} (dropped : drop '\n' = true)
    (lines : List String) :
    dropBoth drop (joined "\n" (lines ++ [""])).toList =
      dropBoth drop (joined "\n" lines).toList := by
  simp only [joined, String.toList_intercalate, List.map_append, List.map_singleton]
  by_cases nothing : lines = []
  · rw [nothing]
    rfl
  · rw [intercalate_concat (by simpa using nothing)]
    exact dropBoth_concat dropped _

end ApiManual.Text
