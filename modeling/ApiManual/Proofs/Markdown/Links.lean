import ApiManual.Markdown
import ApiManual.Site.Stripping

/-!
# Text with links

Generated lines hold brackets that belong to no link: tuples open and close one,
arrays end in `[]`, and index signatures put their key between two.  Next to a link
such a bracket could make up another link, or become one when the link is stripped.
Text is therefore described by how it is put together: what follows a closing
bracket directly is never a link, and never an opening bracket unless it is closed
at once.  From this follows which links can be found in a text, and that stripping
one leaves all others.
-/

namespace ApiManual

namespace Stripping

/-- Characters without brackets. -/
def BracketFree (chars : List Char) : Prop := ∀ char ∈ chars, isLinkText char = true

instance (chars : List Char) : Decidable (BracketFree chars) :=
  List.decidableBAll (isLinkText · = true) chars

theorem BracketFree.nil : BracketFree [] := List.forall_mem_nil _

@[simp] theorem bracketFree_cons {char : Char} {rest : List Char} :
    BracketFree (char :: rest) ↔ isLinkText char = true ∧ BracketFree rest :=
  List.forall_mem_cons

@[simp] theorem bracketFree_append {left right : List Char} :
    BracketFree (left ++ right) ↔ BracketFree left ∧ BracketFree right :=
  List.forall_mem_append

theorem BracketFree.concat {left right : String} (first : BracketFree left.toList)
    (second : BracketFree right.toList) : BracketFree (left ++ right).toList := by
  rw [String.toList_append, bracketFree_append]
  exact ⟨first, second⟩

theorem takeWhile_of_bracketFree {text rest : List Char} {bracket : Char}
    (free : BracketFree text) (isBracket : isLinkText bracket = false) :
    (text ++ bracket :: rest).takeWhile isLinkText = text := by
  rw [List.takeWhile_append_of_pos free, List.takeWhile_cons_of_neg (by simp [isBracket]),
    List.append_nil]

theorem dropWhile_of_bracketFree {text rest : List Char} {bracket : Char}
    (free : BracketFree text) (isBracket : isLinkText bracket = false) :
    (text ++ bracket :: rest).dropWhile isLinkText = bracket :: rest := by
  rw [List.dropWhile_append_of_pos free, List.dropWhile_cons_of_neg (by simp [isBracket])]

/-- What comes before the first bracket is determined, and so is what follows. -/
theorem append_bracket_inj {left right leftRest rightRest : List Char}
    {leftBracket rightBracket : Char} (leftFree : BracketFree left)
    (rightFree : BracketFree right) (isLeft : isLinkText leftBracket = false)
    (isRight : isLinkText rightBracket = false)
    (equal : left ++ leftBracket :: leftRest = right ++ rightBracket :: rightRest) :
    left = right ∧ leftBracket = rightBracket ∧ leftRest = rightRest := by
  have texts := congrArg (·.takeWhile isLinkText) equal
  have rests := congrArg (·.dropWhile isLinkText) equal
  simp only [takeWhile_of_bracketFree leftFree isLeft,
    takeWhile_of_bracketFree rightFree isRight] at texts
  simp only [dropWhile_of_bracketFree leftFree isLeft,
    dropWhile_of_bracketFree rightFree isRight, List.cons.injEq] at rests
  exact ⟨texts, rests⟩

/-- A link lies behind text without brackets. -/
theorem infix_of_bracketFree {text rest link : List Char} (free : BracketFree text)
    (found : '[' :: link <:+: text ++ rest) : '[' :: link <:+: rest := by
  induction text with
  | nil => exact found
  | cons char text ih =>
      rw [bracketFree_cons] at free
      rcases List.infix_cons_iff.mp found with front | behind
      · obtain ⟨rfl, _⟩ := List.cons_prefix_cons.mp front
        cases free.1
      · exact ih free.2 behind

theorem linkEnd_append (id rest : List Char) :
    linkEnd id ++ rest = ']' :: '[' :: (id ++ ']' :: rest) := by
  simp [linkEnd]

/-- The text of a link and its identifier are determined, and so is what follows. -/
theorem append_linkEnd_inj {name other id target rest later : List Char}
    (nameFree : BracketFree name) (otherFree : BracketFree other) (free : BracketFree id)
    (targetFree : BracketFree target)
    (equal : name ++ (linkEnd id ++ rest) = other ++ (linkEnd target ++ later)) :
    name = other ∧ id = target ∧ rest = later := by
  rw [linkEnd_append, linkEnd_append] at equal
  obtain ⟨names, _, ends⟩ := append_bracket_inj nameFree otherFree rfl rfl equal
  rw [List.cons.injEq] at ends
  obtain ⟨ids, _, rests⟩ := append_bracket_inj free targetFree rfl rfl ends.2
  exact ⟨names, ids, rests⟩

end Stripping

open Stripping (BracketFree isLinkText linkEnd linkEnd_append)

/-- Identifiers that stand in links as they are. -/
structure EntityId.LinkSafe (id : EntityId) : Prop where
  nonempty : id.text.toList ≠ []
  bracketFree : BracketFree id.text.toList
  oneLine : '\n' ∉ id.text.toList

namespace Markdown

/-- Text in which links lead to allowed entities only. The flag says whether the
text may follow a closing bracket directly. -/
inductive LinksAmong (allowed : EntityId → Prop) : Bool → List Char → Prop where
  | nil {closed : Bool} : LinksAmong allowed closed []
  | text {closed : Bool} {char : Char} {rest : List Char}
      (free : isLinkText char = true) (later : LinksAmong allowed false rest) :
      LinksAmong allowed closed (char :: rest)
  | closing {closed : Bool} {rest : List Char} (later : LinksAmong allowed true rest) :
      LinksAmong allowed closed (']' :: rest)
  | suffix {closed : Bool} {rest : List Char} (later : LinksAmong allowed true rest) :
      LinksAmong allowed closed ('[' :: ']' :: rest)
  | opening {rest : List Char} (later : LinksAmong allowed false rest) :
      LinksAmong allowed false ('[' :: rest)
  | link {name : List Char} {id : EntityId} {rest : List Char}
      (nameFree : BracketFree name) (oneLine : '\n' ∉ name) (safe : id.LinkSafe)
      (known : name ≠ [] → allowed id) (later : LinksAmong allowed true rest) :
      LinksAmong allowed false ('[' :: (name ++ (linkEnd id.text.toList ++ rest)))

namespace LinksAmong

variable {allowed : EntityId → Prop} {closed : Bool} {chars rest : List Char}

/-! ## Putting text together -/

theorem mono {larger : EntityId → Prop} (within : ∀ id, allowed id → larger id)
    (links : LinksAmong allowed closed chars) : LinksAmong larger closed chars := by
  induction links with
  | nil => exact nil
  | text free _ ih => exact text free ih
  | closing _ ih => exact closing ih
  | suffix _ ih => exact suffix ih
  | opening _ ih => exact opening ih
  | link nameFree oneLine safe known _ ih =>
      exact link nameFree oneLine safe (fun nonempty => within _ (known nonempty)) ih

/-- What may follow a closing bracket may stand anywhere. -/
theorem relax (links : LinksAmong allowed true chars) : LinksAmong allowed closed chars := by
  cases links with
  | nil => exact nil
  | text free later => exact text free later
  | closing later => exact closing later
  | suffix later => exact suffix later

/-- Text goes on with what may follow a closing bracket. -/
theorem append (links : LinksAmong allowed closed chars)
    (later : LinksAmong allowed true rest) : LinksAmong allowed closed (chars ++ rest) := by
  induction links with
  | nil => exact later.relax
  | text free _ ih => exact text free ih
  | closing _ ih => exact closing ih
  | suffix _ ih => exact suffix ih
  | opening _ ih => exact opening ih
  | link nameFree oneLine safe known _ ih =>
      rw [List.cons_append, List.append_assoc, List.append_assoc]
      exact link nameFree oneLine safe known ih

theorem append_of_bracketFree (free : BracketFree chars)
    (later : LinksAmong allowed false rest) : LinksAmong allowed false (chars ++ rest) := by
  induction chars with
  | nil => exact later
  | cons char chars ih =>
      rw [Stripping.bracketFree_cons] at free
      exact text free.1 (ih free.2)

/-- Text without brackets may stand anywhere. -/
theorem of_bracketFree (free : BracketFree chars) : LinksAmong allowed closed chars := by
  cases chars with
  | nil => exact nil
  | cons char chars =>
      rw [Stripping.bracketFree_cons] at free
      refine text free.1 ?_
      rw [← List.append_nil chars]
      exact append_of_bracketFree free.2 nil

/-! ## Finding links -/

/-- Text without brackets at the front can be taken off. -/
theorem of_append (free : BracketFree chars)
    (links : LinksAmong allowed false (chars ++ rest)) : LinksAmong allowed false rest := by
  induction chars with
  | nil => exact links
  | cons char chars ih =>
      rw [Stripping.bracketFree_cons] at free
      apply ih free.2
      rw [List.cons_append] at links
      generalize chars ++ rest = tail at links ⊢
      cases links with
      | text _ later => exact later
      | closing later => cases free.1
      | suffix later => cases free.1
      | opening later => cases free.1
      | link => cases free.1

/-- No link and no text between brackets follows a closing bracket directly. -/
theorem not_bracketed {text : List Char} (nonempty : text ≠ []) (free : BracketFree text) :
    ¬ LinksAmong allowed true ('[' :: (text ++ rest)) := by
  intro links
  cases text with
  | nil => exact nonempty rfl
  | cons char text =>
      cases links with
      | text bracket => cases bracket
      | suffix later => cases free _ List.mem_cons_self

/-- The middle of a link cannot follow text without an opening bracket. -/
theorem not_linkEnd {name id : List Char} (nameFree : BracketFree name)
    (nonempty : id ≠ []) (free : BracketFree id) :
    ¬ LinksAmong allowed false (name ++ (linkEnd id ++ rest)) := by
  intro links
  have links := of_append nameFree links
  simp only [linkEnd, List.cons_append, List.append_assoc] at links
  cases links with
  | text bracket => cases bracket
  | closing later => exact not_bracketed nonempty free later

/-- A link at the front leads to an allowed entity. -/
theorem allowed_of_link {name : List Char} {id : EntityId} (named : name ≠ [])
    (nameFree : BracketFree name) (nonempty : id.text.toList ≠ [])
    (free : BracketFree id.text.toList)
    (links : LinksAmong allowed closed ('[' :: (name ++ (linkEnd id.text.toList ++ rest)))) :
    allowed id := by
  generalize whole : name ++ (linkEnd id.text.toList ++ rest) = tail at links
  cases links with
  | text bracket => cases bracket
  | suffix later =>
      cases name with
      | nil => exact absurd rfl named
      | cons char name =>
          rw [List.cons_append, List.cons.injEq] at whole
          have isFree := nameFree _ List.mem_cons_self
          rw [whole.1] at isFree
          cases isFree
  | opening later =>
      rw [← whole] at later
      exact absurd later (not_linkEnd nameFree nonempty free)
  | @link other target rest otherFree _ safe known later =>
      obtain ⟨rfl, same, _⟩ :=
        Stripping.append_linkEnd_inj nameFree otherFree free safe.bracketFree whole
      have equal : id = target := EntityId.eq_iff.mpr (String.toList_inj.mp same)
      rw [equal]
      exact known named

theorem allowed_of_prefix {name : List Char} {id : EntityId} (named : name ≠ [])
    (nameFree : BracketFree name) (nonempty : id.text.toList ≠ [])
    (free : BracketFree id.text.toList) (links : LinksAmong allowed closed chars)
    (front : '[' :: (name ++ linkEnd id.text.toList) <+: chars) : allowed id := by
  obtain ⟨rest, rfl⟩ := front
  rw [List.cons_append, List.append_assoc] at links
  exact allowed_of_link named nameFree nonempty free links

/-- No link begins at the bracket before the identifier of another one. -/
theorem target_ne_link {name id target after : List Char} (nameFree : BracketFree name)
    (nonempty : id ≠ []) (free : BracketFree id) (targetFree : BracketFree target)
    (later : LinksAmong allowed true rest) :
    target ++ ']' :: rest ≠ name ++ (linkEnd id ++ after) := by
  intro whole
  rw [linkEnd_append] at whole
  obtain ⟨_, _, restEq⟩ := Stripping.append_bracket_inj targetFree nameFree rfl rfl whole
  rw [restEq] at later
  exact not_bracketed nonempty free later

/-- A link that is found behind the start of another one lies behind its end. -/
theorem infix_of_infix_link {name id other target : List Char} (nameFree : BracketFree name)
    (nonempty : id ≠ []) (free : BracketFree id) (otherFree : BracketFree other)
    (targetFree : BracketFree target) (later : LinksAmong allowed true rest)
    (found : '[' :: (name ++ linkEnd id) <:+: other ++ (linkEnd target ++ rest)) :
    '[' :: (name ++ linkEnd id) <:+: rest := by
  have behindName := Stripping.infix_of_bracketFree otherFree found
  rw [linkEnd_append] at behindName
  rcases List.infix_cons_iff.mp behindName with front | atTarget
  · simp at front
  rcases List.infix_cons_iff.mp atTarget with front | inTarget
  · obtain ⟨after, whole⟩ := (List.cons_prefix_cons.mp front).2
    rw [List.append_assoc] at whole
    exact absurd whole.symm (target_ne_link nameFree nonempty free targetFree later)
  have behindTarget := Stripping.infix_of_bracketFree targetFree inTarget
  rcases List.infix_cons_iff.mp behindTarget with front | behind
  · simp at front
  · exact behind

/-- A link anywhere in a text leads to an allowed entity. -/
theorem allowed_of_infix {name : List Char} {id : EntityId} (named : name ≠ [])
    (nameFree : BracketFree name) (nonempty : id.text.toList ≠ [])
    (free : BracketFree id.text.toList) (links : LinksAmong allowed closed chars)
    (found : '[' :: (name ++ linkEnd id.text.toList) <:+: chars) : allowed id := by
  have atFront {chars : List Char} (links : LinksAmong allowed false chars) :=
    allowed_of_prefix named nameFree nonempty free links
  induction links with
  | nil => simp at found
  | text isText later ih =>
      rcases List.infix_cons_iff.mp found with front | behind
      · exact atFront (text isText later) front
      · exact ih behind
  | closing later ih =>
      rcases List.infix_cons_iff.mp found with front | behind
      · exact atFront (closing later) front
      · exact ih behind
  | suffix later ih =>
      rcases List.infix_cons_iff.mp found with front | atClosing
      · exact atFront (suffix later) front
      rcases List.infix_cons_iff.mp atClosing with front | behind
      · exact atFront (closing later) front
      · exact ih behind
  | opening later ih =>
      rcases List.infix_cons_iff.mp found with front | behind
      · exact atFront (opening later) front
      · exact ih behind
  | link otherFree oneLine safe known later ih =>
      rcases List.infix_cons_iff.mp found with front | behind
      · exact atFront (link otherFree oneLine safe known later) front
      · exact ih (infix_of_infix_link nameFree nonempty free otherFree safe.bracketFree later
          behind)

end LinksAmong

end Markdown

end ApiManual
