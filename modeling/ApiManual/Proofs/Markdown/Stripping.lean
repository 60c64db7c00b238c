import ApiManual.Proofs.Markdown.Links
import ApiManual.Proofs.Text.Lines
import Mathlib.Data.List.TakeWhile

/-!
# Stripping and cutting text with links

Two things are done to text with links before it is written: it is cut into lines,
and the links to entities that are not documented are stripped.  Neither makes a
link, and stripping takes away exactly the links to the given entity.
-/

namespace ApiManual

namespace Stripping

variable {id text rest : List Char} {char : Char}

/-- A link is found behind an opening bracket when its text comes first. -/
theorem linkAfterBracket?_eq_some_iff {chars : List Char} :
    linkAfterBracket? id chars = some (text, rest) ↔
      text ≠ [] ∧ BracketFree text ∧ chars = text ++ (linkEnd id ++ rest) := by
  constructor
  · intro found
    simp only [linkAfterBracket?] at found
    split at found
    · cases found
    · next named =>
        obtain ⟨after, begins, equal⟩ := Option.map_eq_some_iff.mp found
        cases equal
        refine ⟨named, fun char member => by simpa using List.mem_takeWhile_imp member, ?_⟩
        rw [List.isPrefixOf?_eq_some_iff_append_eq.mp begins]
        exact List.takeWhile_append_dropWhile.symm
  · intro split
    obtain ⟨named, free, rfl⟩ := split
    have ends : linkEnd id ++ rest = ']' :: ('[' :: (id ++ ']' :: rest)) := linkEnd_append id rest
    have found : (linkEnd id).isPrefixOf? (linkEnd id ++ rest) = some rest :=
      List.isPrefixOf?_eq_some_iff_append_eq.mpr rfl
    rw [ends] at found
    simp only [linkAfterBracket?, ends]
    rw [takeWhile_of_bracketFree free rfl, dropWhile_of_bracketFree free rfl, if_neg named,
      found]
    rfl

theorem strip_nil : strip id [] = [] := by rw [strip]

theorem strip_cons_of_ne (other : char ≠ '[') :
    strip id (char :: rest) = char :: strip id rest := by
  rw [strip, if_neg other]

/-- An opening bracket stays when no link to the identifier begins there. -/
theorem strip_bracket (missing : ∀ name after, name ≠ [] → BracketFree name →
    rest ≠ name ++ (linkEnd id ++ after)) :
    strip id ('[' :: rest) = '[' :: strip id rest := by
  rw [strip, if_pos rfl]
  split
  · next name after found =>
      obtain ⟨named, free, whole⟩ := linkAfterBracket?_eq_some_iff.mp found
      exact absurd whole (missing name after named free)
  · rfl

/-- Brackets with nothing between them begin no link. -/
theorem strip_suffix : strip id ('[' :: ']' :: rest) = '[' :: ']' :: strip id rest := by
  have missing : ∀ name after, name ≠ [] → BracketFree name →
      ']' :: rest ≠ name ++ (linkEnd id ++ after) := by
    intro name after named free whole
    cases name with
    | nil => exact named rfl
    | cons char name =>
        rw [List.cons_append, List.cons.injEq] at whole
        have bracket := free char List.mem_cons_self
        rw [← whole.1] at bracket
        cases bracket
  rw [strip_bracket missing, strip_cons_of_ne (by decide)]

theorem strip_link (named : text ≠ []) (free : BracketFree text) :
    strip id ('[' :: (text ++ (linkEnd id ++ rest))) = text ++ strip id rest := by
  have found : linkAfterBracket? id (text ++ (linkEnd id ++ rest)) = some (text, rest) :=
    linkAfterBracket?_eq_some_iff.mpr ⟨named, free, rfl⟩
  rw [strip, if_pos rfl]
  split
  · next other after found' =>
      rw [found] at found'
      cases found'
      rfl
  · next missing => simp [found] at missing

theorem ne_of_isLinkText (free : isLinkText char = true) : char ≠ '[' := by
  intro bracket
  rw [bracket] at free
  cases free

theorem strip_append_of_bracketFree (free : BracketFree text) :
    strip id (text ++ rest) = text ++ strip id rest := by
  induction text with
  | nil => rfl
  | cons char text ih =>
      rw [bracketFree_cons] at free
      rw [List.cons_append, strip_cons_of_ne (ne_of_isLinkText free.1), ih free.2,
        List.cons_append]

end Stripping

open Stripping (BracketFree isLinkText linkEnd linkEnd_append strip)

namespace Markdown

namespace LinksAmong

variable {allowed : EntityId → Prop} {closed : Bool} {chars rest : List Char} {id : EntityId}

/-! ## Stripping -/

/-- The end of a link is not touched: no link begins at its brackets. -/
theorem strip_linkEnd {target : EntityId} (safe : id.LinkSafe) (targetSafe : target.LinkSafe)
    (later : LinksAmong allowed true rest) :
    strip id.text.toList (linkEnd target.text.toList ++ rest) =
      linkEnd target.text.toList ++ strip id.text.toList rest := by
  have missing : ∀ name after, name ≠ [] → BracketFree name →
      target.text.toList ++ ']' :: rest ≠ name ++ (linkEnd id.text.toList ++ after) :=
    fun _ _ _ free =>
      target_ne_link free safe.nonempty safe.bracketFree targetSafe.bracketFree later
  rw [linkEnd_append, linkEnd_append, Stripping.strip_cons_of_ne (by decide),
    Stripping.strip_bracket missing,
    Stripping.strip_append_of_bracketFree targetSafe.bracketFree,
    Stripping.strip_cons_of_ne (by decide)]

/-- A bracket that belongs to no link is not touched. -/
theorem strip_opening (safe : id.LinkSafe) (later : LinksAmong allowed false rest) :
    Stripping.strip id.text.toList ('[' :: rest) = '[' :: Stripping.strip id.text.toList rest := by
  apply Stripping.strip_bracket
  intro name after _ free whole
  rw [whole] at later
  exact not_linkEnd free safe.nonempty safe.bracketFree later

/-- A link that has no text or leads elsewhere is not touched. -/
theorem strip_otherLink {name : List Char} {target : EntityId} (safe : id.LinkSafe)
    (targetSafe : target.LinkSafe) (nameFree : BracketFree name)
    (elsewhere : name ≠ [] → target ≠ id) (later : LinksAmong allowed true rest) :
    Stripping.strip id.text.toList ('[' :: (name ++ (linkEnd target.text.toList ++ rest))) =
      '[' :: (name ++ (linkEnd target.text.toList ++ Stripping.strip id.text.toList rest)) := by
  have missing : ∀ other after, other ≠ [] → BracketFree other →
      name ++ (linkEnd target.text.toList ++ rest) ≠
        other ++ (linkEnd id.text.toList ++ after) := by
    intro other after named free whole
    obtain ⟨rfl, same, _⟩ := Stripping.append_linkEnd_inj nameFree free
      targetSafe.bracketFree safe.bracketFree whole
    exact elsewhere named (EntityId.eq_iff.mpr (String.toList_inj.mp same))
  rw [Stripping.strip_bracket missing, Stripping.strip_append_of_bracketFree nameFree,
    strip_linkEnd safe targetSafe later]

/-- Stripping takes away the links to an entity, leaves all others and makes no
link. -/
theorem strip (safe : id.LinkSafe) (links : LinksAmong allowed closed chars) :
    LinksAmong (fun other => allowed other ∧ other ≠ id) closed
      (Stripping.strip id.text.toList chars) := by
  induction links with
  | nil =>
      rw [Stripping.strip_nil]
      exact nil
  | text free later ih =>
      rw [Stripping.strip_cons_of_ne (Stripping.ne_of_isLinkText free)]
      exact text free ih
  | closing later ih =>
      rw [Stripping.strip_cons_of_ne (by decide)]
      exact closing ih
  | suffix later ih =>
      rw [Stripping.strip_suffix]
      exact suffix ih
  | opening later ih =>
      rw [strip_opening safe later]
      exact opening ih
  | @link name target rest nameFree oneLine targetSafe known later ih =>
      by_cases found : name ≠ [] ∧ target = id
      · obtain ⟨named, rfl⟩ := found
        rw [Stripping.strip_link named nameFree]
        exact append_of_bracketFree nameFree ih.relax
      · have elsewhere : name ≠ [] → target ≠ id := fun named same => found ⟨named, same⟩
        rw [strip_otherLink safe targetSafe nameFree elsewhere later]
        exact link nameFree oneLine targetSafe
          (fun named => ⟨known named, elsewhere named⟩) ih

end LinksAmong

end Markdown

/-! ## Lines -/

namespace Markdown

variable {allowed : EntityId → Prop} {closed : Bool} {chars : List Char}
  {lines : List (List Char)}

/-- Lines in which links lead to allowed entities only. The flag is for the first
line. -/
def LinesAmong (allowed : EntityId → Prop) (closed : Bool) : List (List Char) → Prop
  | [] => True
  | first :: later =>
      LinksAmong allowed closed first ∧ ∀ line ∈ later, LinksAmong allowed false line

theorem LinesAmong.links (among : LinesAmong allowed closed lines) :
    ∀ line ∈ lines, LinksAmong allowed false line := by
  cases lines with
  | nil => exact List.forall_mem_nil _
  | cons first later =>
      cases closed with
      | false => exact List.forall_mem_cons.mpr among
      | true => exact List.forall_mem_cons.mpr ⟨among.1.relax, among.2⟩

theorem LinesAmong.startLine {front : List Char} {before : Bool}
    (among : LinesAmong allowed closed lines)
    (start : ∀ line, LinksAmong allowed closed line → LinksAmong allowed before (front ++ line)) :
    LinesAmong allowed before (Text.startLine front lines) := by
  cases lines with
  | nil =>
      have whole := start [] .nil
      rw [List.append_nil] at whole
      exact ⟨whole, List.forall_mem_nil _⟩
  | cons line later => exact ⟨start line among.1, among.2⟩

/-- A character that is no bracket joins the first line, or ends it. -/
theorem LinesAmong.cons_text {char : Char} {rest : List Char} (free : isLinkText char = true)
    (among : LinesAmong allowed false (Text.linesOf rest)) :
    LinesAmong allowed closed (Text.linesOf (char :: rest)) := by
  by_cases newline : char = '\n'
  · rw [newline, Text.linesOf.eq_2]
    exact ⟨.nil, among.links⟩
  · by_cases lineEnd : ∃ after, char = '\r' ∧ rest = '\n' :: after
    · obtain ⟨after, rfl, rfl⟩ := lineEnd
      rw [Text.linesOf.eq_2] at among
      rw [Text.linesOf.eq_3]
      exact ⟨.nil, among.2⟩
    · rw [Text.linesOf_cons newline fun after isReturn equal =>
        lineEnd ⟨after, isReturn, equal⟩]
      exact among.startLine fun line => .text free

/-- A link stays on its line. -/
theorem linesOf_linkEnd {name id : List Char} (oneLine : '\n' ∉ name) (idOneLine : '\n' ∉ id)
    (rest : List Char) :
    Text.linesOf ('[' :: (name ++ (linkEnd id ++ rest))) =
      Text.startLine ('[' :: (name ++ linkEnd id)) (Text.linesOf rest) := by
  have front : '\n' ∉ '[' :: (name ++ (']' :: '[' :: id)) := by simp [oneLine, idOneLine]
  have cut := @Text.linesOf_append _ rest ']' front (by decide) (by decide)
  simpa [linkEnd] using cut

/-- Cutting a text into lines makes no link. -/
theorem LinksAmong.linesOf (links : LinksAmong allowed closed chars) :
    LinesAmong allowed closed (Text.linesOf chars) := by
  induction links with
  | nil => trivial
  | text free later ih => exact ih.cons_text free
  | closing later ih =>
      rw [Text.linesOf_cons (by decide) (by simp)]
      exact ih.startLine fun line => closing
  | @suffix closed rest later ih =>
      have cut : Text.linesOf (['['] ++ ']' :: rest) =
          Text.startLine ['[', ']'] (Text.linesOf rest) :=
        Text.linesOf_append (by decide) (by decide) (by decide)
      rw [← List.singleton_append, cut]
      exact ih.startLine fun line => suffix
  | opening later ih =>
      rw [Text.linesOf_cons (by decide) (by simp)]
      exact ih.startLine fun line => opening
  | link nameFree oneLine safe known later ih =>
      rw [linesOf_linkEnd oneLine safe.oneLine]
      refine ih.startLine fun line links => ?_
      rw [List.cons_append, List.append_assoc]
      exact link nameFree oneLine safe known links

end Markdown

end ApiManual
