import ApiManual.Text.Blank

/-!
# Lines, words and surrounding space

A line ends at a line feed, and a carriage return directly before that line feed
belongs to the line end.  A final line end opens no further line.
-/

namespace ApiManual.Text

/-- The lines of a text, without their line ends. -/
def linesOf : List Char → List (List Char)
  | [] => []
  | '\n' :: rest => [] :: linesOf rest
  | '\r' :: '\n' :: rest => [] :: linesOf rest
  | char :: rest =>
      match linesOf rest with
      | [] => [[char]]
      | line :: later => (char :: line) :: later

def lines (text : String) : List String :=
  (linesOf text.toList).map String.ofList

def joined (separator : String) (texts : List String) : String :=
  separator.intercalate texts

/-- A list without its initial and final runs of elements that satisfy
`drop`. -/
def dropBoth {α : Type} (drop : α → Bool) (values : List α) : List α :=
  ((values.dropWhile drop).reverse.dropWhile drop).reverse

def trimChars (chars : List Char) : List Char := dropBoth isBlank chars

def trim (text : String) : String := String.ofList (trimChars text.toList)

def isBlankText (text : String) : Bool := text.toList.all isBlank

/-- The characters before the first blank one, and those after it when there is
one. -/
def firstWord (chars : List Char) : List Char × List Char :=
  (chars.takeWhile (!isBlank ·), (chars.dropWhile (!isBlank ·)).drop 1)

/-- What parts are put together to comes from the separator or from a part. -/
theorem mem_of_mem_intercalate {α : Type} {separator : List α}
    {parts : List (List α)} {value : α}
    (member : value ∈ separator.intercalate parts) :
    value ∈ separator ∨ ∃ part ∈ parts, value ∈ part := by
  induction parts with
  | nil => simp at member
  | cons first rest ih =>
      cases rest with
      | nil => exact .inr ⟨first, by simp, by simpa using member⟩
      | cons second later =>
          rw [List.intercalate_cons_cons, List.mem_append, List.mem_append] at member
          rcases member with (inFirst | inSeparator) | inRest
          · exact .inr ⟨first, by simp, inFirst⟩
          · exact .inl inSeparator
          · exact (ih inRest).imp_right fun ⟨part, held, inside⟩ =>
              ⟨part, List.mem_cons_of_mem _ held, inside⟩

/-- No line holds a line feed. -/
theorem newline_not_mem_of_mem_linesOf {chars line : List Char}
    (member : line ∈ linesOf chars) : '\n' ∉ line := by
  fun_induction linesOf chars generalizing line with
  | case1 => simp at member
  | case2 rest ih | case3 rest ih =>
      rcases List.mem_cons.mp member with rfl | later
      · simp
      · exact ih later
  | case4 char rest notNewline notReturn noLines ih =>
      rw [List.mem_singleton] at member
      subst member
      simpa using fun equal => notNewline equal.symm
  | case5 char rest notNewline notReturn first later split ih =>
      rcases List.mem_cons.mp member with rfl | inLater
      · have clean : '\n' ∉ first := ih (by simp [split])
        simp only [List.mem_cons, not_or]
        exact ⟨fun equal => notNewline equal.symm, clean⟩
      · exact ih (by simp [split, inLater])

end ApiManual.Text
