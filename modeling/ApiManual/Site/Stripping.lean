import ApiManual.EntityId
import ApiManual.Text.Lines

/-!
# Stripping links

A link whose target cannot be found is replaced by its text.  The text of a link
holds no brackets, so links next to each other on a line are treated one by one.
-/

namespace ApiManual.Stripping

def isLinkText (char : Char) : Bool := char ≠ '[' ∧ char ≠ ']'

/-- What stands between the text of a link to an identifier and what follows
the link. -/
def linkEnd (id : List Char) : List Char := ']' :: '[' :: id ++ [']']

/-- The text of a link to an identifier and what follows the link, when the
characters after an opening bracket are such a link. -/
def linkAfterBracket? (id chars : List Char) :
    Option (List Char × List Char) :=
  let text := chars.takeWhile isLinkText
  if text = [] then none
  else ((linkEnd id).isPrefixOf? (chars.dropWhile isLinkText)).map (text, ·)

theorem length_le_of_isPrefixOf? {start chars rest : List Char}
    (found : start.isPrefixOf? chars = some rest) : rest.length ≤ chars.length := by
  induction start generalizing chars with
  | nil =>
      cases found
      exact Nat.le_refl _
  | cons first start ih =>
      cases chars with
      | nil => cases found
      | cons char chars =>
          change (if first == char then start.isPrefixOf? chars else none) = some rest at found
          split at found
          · exact Nat.le_succ_of_le (ih found)
          · cases found

/-- What follows a link is no longer than what the link begins. -/
theorem length_le_of_linkAfterBracket? {id chars text rest : List Char}
    (found : linkAfterBracket? id chars = some (text, rest)) :
    rest.length ≤ chars.length := by
  simp only [linkAfterBracket?] at found
  split at found
  · cases found
  · obtain ⟨after, afterEq, equal⟩ := Option.map_eq_some_iff.mp found
    cases equal
    exact Nat.le_trans (length_le_of_isPrefixOf? afterEq)
      (List.dropWhile_sublist isLinkText).length_le

/-- The characters of a line without the links to an identifier, from left to
right. -/
def strip (id : List Char) : List Char → List Char
  | [] => []
  | char :: rest =>
      if char = '[' then
        match _found : linkAfterBracket? id rest with
        | some (text, after) => text ++ strip id after
        | none => char :: strip id rest
      else char :: strip id rest
termination_by chars => chars.length
decreasing_by
  · have shorter := length_le_of_linkAfterBracket? _found
    rw [List.length_cons]
    omega
  · simp
  · simp

def line (id : EntityId) (line : String) : String :=
  String.ofList (strip id.text.toList line.toList)

def lines (id : EntityId) (lines : List String) : List String :=
  lines.map (line id)

end ApiManual.Stripping
