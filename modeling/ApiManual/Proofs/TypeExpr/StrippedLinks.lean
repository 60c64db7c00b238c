import ApiManual.Proofs.Markdown.Blocks
import ApiManual.Proofs.TypeExpr.Styles
import ApiManual.Proofs.TypeExpr.Targets

/-!
# Stripping the links of a type

Links are stripped from text, line by line and one entity after the other, and nothing is known
of the type that a line was made from.  The result is the text of a type all the same: of the
type without the targets that were stripped.

A text is stripped apart from what follows it, as long as what follows does not begin with text
between brackets.  And the opening bracket of a tuple is no link, since the first bracket behind
it, if there is one in the tuple, opens again.
-/

namespace ApiManual

open Markdown (Separates toList_link)
open Stripping (BracketFree linkEnd linkEnd_append strip)

/-- Identifiers that links can be stripped of. -/
structure EntityId.Strippable (id : EntityId) : Prop where
  nonempty : id.text.toList ≠ []
  bracketFree : BracketFree id.text.toList

instance (id : EntityId) : Decidable id.Strippable :=
  decidable_of_iff (id.text.toList ≠ [] ∧ BracketFree id.text.toList)
    ⟨fun ⟨nonempty, free⟩ => ⟨nonempty, free⟩, fun id => ⟨id.nonempty, id.bracketFree⟩⟩

namespace Stripping

variable {id chars rest : List Char} {text stripped : String}

/-! ## What follows a text, and how it begins -/

/-- Text that does not begin with text between brackets. -/
def Detached (rest : List Char) : Prop :=
  ∀ name after, name ≠ [] → BracketFree name → rest ≠ '[' :: (name ++ ']' :: after)

theorem Detached.nil : Detached [] := by
  intro name after _ _ whole
  cases whole

theorem Detached.cons {char : Char} (other : char ≠ '[') : Detached (char :: rest) := by
  intro name after _ _ whole
  exact other (List.cons.inj whole).1

theorem Detached.suffix : Detached ('[' :: ']' :: rest) := by
  intro name after named free whole
  cases name with
  | nil => exact named rfl
  | cons char name =>
      rw [List.cons_append, List.cons.injEq, List.cons.injEq] at whole
      have bracket := free char List.mem_cons_self
      rw [← whole.2.1] at bracket
      cases bracket

theorem Detached.of_separates {separator : String} (separates : Separates separator) :
    Detached (separator.toList ++ rest) := by
  have free := separates.bracketFree
  cases separatorEq : separator.toList with
  | nil => exact absurd (String.toList_eq_nil_iff.mp separatorEq) separates.nonempty
  | cons char chars =>
      rw [separatorEq, bracketFree_cons] at free
      exact .cons (ne_of_isLinkText free.1)

/-- Text whose first bracket, if it has one, is an opening bracket. -/
inductive OpensFirst : List Char → Prop where
  | free {chars : List Char} (free : BracketFree chars) : OpensFirst chars
  | opening {front rest : List Char} (free : BracketFree front) :
      OpensFirst (front ++ '[' :: rest)

theorem OpensFirst.append (first : OpensFirst chars) (second : OpensFirst rest) :
    OpensFirst (chars ++ rest) := by
  cases first with
  | free free =>
      cases second with
      | free later => exact .free (bracketFree_append.mpr ⟨free, later⟩)
      | opening later =>
          rw [← List.append_assoc]
          exact .opening (bracketFree_append.mpr ⟨free, later⟩)
  | opening free =>
      rw [List.append_assoc, List.cons_append]
      exact .opening free

/-- Between brackets, text that opens first is not the text of a link when what follows does not
begin with text between brackets. -/
theorem OpensFirst.ne_link (opens : OpensFirst chars) (detached : Detached rest)
    (some : id ≠ []) (idFree : BracketFree id) {name after : List Char}
    (nameFree : BracketFree name) :
    chars ++ ']' :: rest ≠ name ++ (linkEnd id ++ after) := by
  intro whole
  rw [linkEnd_append] at whole
  cases opens with
  | free free =>
      obtain ⟨_, _, restEq⟩ := append_bracket_inj free nameFree rfl rfl whole
      exact detached id after some idFree restEq
  | opening free =>
      rw [List.append_assoc, List.cons_append] at whole
      obtain ⟨_, differs, _⟩ := append_bracket_inj free nameFree rfl rfl whole
      cases differs

/-! ## Texts that are stripped on their own -/

/-- A text is stripped to another one, whatever follows that does not begin with text between
brackets. -/
structure StripsTo (id : List Char) (text stripped : String) : Prop where
  opensFirst : OpensFirst text.toList
  strip_append : ∀ rest, Detached rest →
    strip id (text.toList ++ rest) = stripped.toList ++ strip id rest

namespace StripsTo

theorem of_bracketFree (free : BracketFree text.toList) : StripsTo id text text where
  opensFirst := .free free
  strip_append := fun _ _ => strip_append_of_bracketFree free

/-- One text after another that keeps apart from it. -/
theorem append {next strippedNext : String} (first : StripsTo id text stripped)
    (second : StripsTo id next strippedNext)
    (apart : ∀ rest, Detached rest → Detached (next.toList ++ rest)) :
    StripsTo id (text ++ next) (stripped ++ strippedNext) where
  opensFirst := by
    rw [String.toList_append]
    exact first.opensFirst.append second.opensFirst
  strip_append := by
    intro rest detached
    rw [String.toList_append, List.append_assoc, first.strip_append _ (apart rest detached),
      second.strip_append rest detached, String.toList_append, List.append_assoc]

/-- Text without brackets before a text. -/
theorem after {front : String} (free : BracketFree front.toList)
    (strips : StripsTo id text stripped) : StripsTo id (front ++ text) (front ++ stripped) where
  opensFirst := by
    rw [String.toList_append]
    exact (OpensFirst.free free).append strips.opensFirst
  strip_append := by
    intro rest detached
    rw [String.toList_append, List.append_assoc, strip_append_of_bracketFree free,
      strips.strip_append rest detached, String.toList_append, List.append_assoc]

theorem append_separator {separator next strippedNext : String} (separates : Separates separator)
    (first : StripsTo id text stripped) (second : StripsTo id next strippedNext) :
    StripsTo id (text ++ (separator ++ next)) (stripped ++ (separator ++ strippedNext)) := by
  apply first.append (second.after separates.bracketFree)
  intro rest _
  rw [String.toList_append, List.append_assoc]
  exact .of_separates separates

theorem joined {separator : String} {texts strippedTexts : List String}
    (separates : Separates separator) (each : List.Forall₂ (StripsTo id) texts strippedTexts) :
    StripsTo id (Text.joined separator texts) (Text.joined separator strippedTexts) := by
  induction each with
  | nil => exact of_bracketFree .nil
  | cons first later ih =>
      cases later with
      | nil =>
          rw [Text.joined, Text.joined, String.intercalate_singleton,
            String.intercalate_singleton]
          exact first
      | cons second later =>
          rw [Text.joined, Text.joined, String.intercalate_cons_cons,
            String.intercalate_cons_cons, String.append_assoc, String.append_assoc]
          exact first.append_separator separates ih

/-- The brackets of an array stay. -/
theorem array (strips : StripsTo id text stripped) :
    StripsTo id (text ++ "[]") (stripped ++ "[]") := by
  have suffix : ∀ rest, strip id ('[' :: ']' :: rest) = '[' :: ']' :: strip id rest := by
    intro rest
    have missing : ∀ name after, name ≠ [] → BracketFree name →
        ']' :: rest ≠ name ++ (linkEnd id ++ after) := by
      intro name after named free whole
      rw [linkEnd_append] at whole
      exact Detached.suffix name _ named free (congrArg ('[' :: ·) whole)
    rw [strip_bracket missing, strip_cons_of_ne (by decide)]
  refine strips.append ⟨OpensFirst.opening .nil, fun rest _ => suffix rest⟩ ?_
  intro rest _
  exact .suffix

/-- The brackets of a tuple stay. -/
theorem tuple (some : id ≠ []) (idFree : BracketFree id) (strips : StripsTo id text stripped) :
    StripsTo id ("[" ++ text ++ "]") ("[" ++ stripped ++ "]") where
  opensFirst := by
    rw [String.toList_append, String.toList_append, List.append_assoc]
    exact OpensFirst.opening .nil
  strip_append := by
    intro rest detached
    have whole : ∀ inner : String, ("[" ++ inner ++ "]").toList =
        '[' :: (inner.toList ++ [']']) := by simp
    have missing : ∀ name after, name ≠ [] → BracketFree name →
        text.toList ++ ']' :: rest ≠ name ++ (linkEnd id ++ after) := by
      intro name after _ free
      exact strips.opensFirst.ne_link detached some idFree free
    rw [whole, whole, List.cons_append, List.append_assoc, List.singleton_append,
      strip_bracket missing, strips.strip_append _ (.cons (by decide)),
      strip_cons_of_ne (by decide), List.cons_append, List.append_assoc, List.singleton_append]

theorem opensFirst_link (name : String) (target : EntityId) :
    OpensFirst (Markdown.link name target).toList := by
  rw [toList_link]
  exact OpensFirst.opening .nil

/-- A link to the entity becomes its text. -/
theorem link {name : String} {target : EntityId} (named : name ≠ "")
    (free : BracketFree name.toList) :
    StripsTo target.text.toList (Markdown.link name target) name where
  opensFirst := opensFirst_link name target
  strip_append := by
    intro rest _
    rw [toList_link, List.cons_append, List.append_assoc]
    exact strip_link (fun empty => named (String.toList_eq_nil_iff.mp empty)) free

/-- A link to another entity stays. -/
theorem other_link {name : String} {target : EntityId} (free : BracketFree name.toList)
    (targetFree : BracketFree target.text.toList) (some : id ≠ []) (idFree : BracketFree id)
    (other : target.text.toList ≠ id) :
    StripsTo id (Markdown.link name target) (Markdown.link name target) where
  opensFirst := opensFirst_link name target
  strip_append := by
    intro rest detached
    have notHere : ∀ found after, found ≠ [] → BracketFree found →
        name.toList ++ (linkEnd target.text.toList ++ rest) ≠ found ++ (linkEnd id ++ after) := by
      intro found after _ foundFree whole
      exact other (append_linkEnd_inj free foundFree targetFree idFree whole).2.1
    have notInside : ∀ found after, found ≠ [] → BracketFree found →
        target.text.toList ++ ']' :: rest ≠ found ++ (linkEnd id ++ after) := by
      intro found after _ foundFree
      exact (OpensFirst.free targetFree).ne_link detached some idFree foundFree
    rw [toList_link, List.cons_append, List.append_assoc, strip_bracket notHere,
      strip_append_of_bracketFree free, linkEnd_append, strip_cons_of_ne (by decide),
      strip_bracket notInside, strip_append_of_bracketFree targetFree,
      strip_cons_of_ne (by decide), List.cons_append, List.append_assoc, linkEnd_append]

theorem line_eq {entity : EntityId} (strips : StripsTo entity.text.toList text stripped) :
    Stripping.line entity text = stripped := by
  have whole := strips.strip_append [] .nil
  rw [List.append_nil, strip_nil, List.append_nil] at whole
  rw [Stripping.line, whole, String.ofList_toList]

end StripsTo

end Stripping

open Stripping (StripsTo)

namespace TypeExpr

/-! ## Types without some targets -/

mutual

/-- No name in a type expression holds a bracket, references have names, and all targets can be
stripped. -/
def Strippable : TypeExpr → Prop
  | .keyword name => BracketFree name.toList
  | .reference name target arguments =>
      name ≠ "" ∧ BracketFree name.toList ∧ (∀ id ∈ target, id.Strippable) ∧
        AllStrippable arguments
  | .array element => element.Strippable
  | .union types => AllStrippable types
  | .intersection types => AllStrippable types
  | .tuple types => AllStrippable types
  | .literal text => BracketFree text.toList

/-- The same for each of several type expressions. -/
def AllStrippable : List TypeExpr → Prop
  | [] => True
  | type :: rest => type.Strippable ∧ AllStrippable rest

end

mutual

/-- A type expression without the targets that are gone. -/
def without (gone : EntityId → Bool) : TypeExpr → TypeExpr
  | .keyword name => .keyword name
  | .reference name target arguments =>
      .reference name (target.filter (!gone ·)) (allWithout gone arguments)
  | .array element => .array (element.without gone)
  | .union types => .union (allWithout gone types)
  | .intersection types => .intersection (allWithout gone types)
  | .tuple types => .tuple (allWithout gone types)
  | .literal text => .literal text

/-- The same for each of several type expressions. -/
def allWithout (gone : EntityId → Bool) : List TypeExpr → List TypeExpr
  | [] => []
  | type :: rest => type.without gone :: allWithout gone rest

end

@[simp] theorem isJoined_without (gone : EntityId → Bool) (type : TypeExpr) :
    (type.without gone).isJoined = type.isJoined := by
  cases type <;> rfl

mutual

theorem without_none (type : TypeExpr) : type.without (fun _ => false) = type := by
  cases type with
  | keyword name => rfl
  | literal text => rfl
  | reference name target arguments =>
      rw [without, allWithout_none arguments]
      cases target <;> rfl
  | array element => rw [without, without_none element]
  | union types => rw [without, allWithout_none types]
  | intersection types => rw [without, allWithout_none types]
  | tuple types => rw [without, allWithout_none types]

theorem allWithout_none (types : List TypeExpr) : allWithout (fun _ => false) types = types := by
  cases types with
  | nil => rfl
  | cons type rest => rw [allWithout, without_none type, allWithout_none rest]

end

mutual

/-- Targets can be taken away in two steps. -/
theorem without_without (first second : EntityId → Bool) (type : TypeExpr) :
    (type.without first).without second = type.without fun id => first id || second id := by
  cases type with
  | keyword name => rfl
  | literal text => rfl
  | reference name target arguments =>
      simp only [without, allWithout_allWithout first second arguments, Option.filter_filter,
        Bool.not_or]
  | array element => simp only [without, without_without first second element]
  | union types => simp only [without, allWithout_allWithout first second types]
  | intersection types => simp only [without, allWithout_allWithout first second types]
  | tuple types => simp only [without, allWithout_allWithout first second types]

theorem allWithout_allWithout (first second : EntityId → Bool) (types : List TypeExpr) :
    allWithout second (allWithout first types) =
      allWithout (fun id => first id || second id) types := by
  cases types with
  | nil => rfl
  | cons type rest =>
      simp only [allWithout, without_without first second type,
        allWithout_allWithout first second rest]

end

mutual

/-- The targets that are left are the others, each where it was. -/
theorem targets_without (gone : EntityId → Bool) (type : TypeExpr) :
    (type.without gone).targets = type.targets.filter (!gone ·) := by
  cases type with
  | keyword name => rfl
  | literal text => rfl
  | reference name target arguments =>
      rw [without, targets, targets, List.filter_append, targetsAll_allWithout gone arguments]
      cases target with
      | none => rfl
      | some id => cases isGone : gone id <;> simp [Option.filter_some, isGone]
  | array element => exact targets_without gone element
  | union types => exact targetsAll_allWithout gone types
  | intersection types => exact targetsAll_allWithout gone types
  | tuple types => exact targetsAll_allWithout gone types

theorem targetsAll_allWithout (gone : EntityId → Bool) (types : List TypeExpr) :
    targetsAll (allWithout gone types) = (targetsAll types).filter (!gone ·) := by
  cases types with
  | nil => rfl
  | cons type rest =>
      rw [allWithout, targetsAll, targetsAll, List.filter_append, targets_without gone type,
        targetsAll_allWithout gone rest]

end

mutual

theorem strippable_without (type : TypeExpr) (strippable : type.Strippable)
    (gone : EntityId → Bool) : (type.without gone).Strippable := by
  cases type with
  | keyword name => exact strippable
  | literal text => exact strippable
  | reference name target arguments =>
      obtain ⟨named, free, targets, inside⟩ := strippable
      refine ⟨named, free, fun id left => targets id ?_,
        allStrippable_allWithout arguments inside gone⟩
      exact (Option.mem_filter_iff.mp left).1
  | array element => exact strippable_without element strippable gone
  | union types => exact allStrippable_allWithout types strippable gone
  | intersection types => exact allStrippable_allWithout types strippable gone
  | tuple types => exact allStrippable_allWithout types strippable gone

theorem allStrippable_allWithout (types : List TypeExpr) (strippable : AllStrippable types)
    (gone : EntityId → Bool) : AllStrippable (allWithout gone types) := by
  cases types with
  | nil => trivial
  | cons type rest =>
      exact ⟨strippable_without type strippable.1 gone,
        allStrippable_allWithout rest strippable.2 gone⟩

end

mutual

/-- Without its targets a type is written in prose as in code, but for the brackets around type
arguments. -/
theorem textIn_without {gone : EntityId → Bool} (type : TypeExpr)
    (all : ∀ id ∈ type.targets, gone id = true) :
    (type.without gone).textIn .prose = type.textIn (.code "&lt;" "&gt;") := by
  cases type with
  | keyword name => rfl
  | literal text => rfl
  | reference name target arguments =>
      rw [targets, List.forall_mem_append] at all
      have noTarget : target.filter (!gone ·) = none := by
        rw [Option.filter_eq_none_iff]
        intro id isTarget
        simpa using all.1 id (Option.mem_toList.mpr isTarget)
      rw [without, noTarget, textIn, textIn, textsIn_allWithout arguments all.2]
      rfl
  | array element =>
      rw [without, textIn, textIn, textIn_without element all, arrayText, arrayText,
        isJoined_without]
  | union types => rw [without, textIn, textIn, textsIn_allWithout types all]
  | intersection types => rw [without, textIn, textIn, textsIn_allWithout types all]
  | tuple types => rw [without, textIn, textIn, textsIn_allWithout types all]

theorem textsIn_allWithout {gone : EntityId → Bool} (types : List TypeExpr)
    (all : ∀ id ∈ targetsAll types, gone id = true) :
    textsIn .prose (allWithout gone types) = textsIn (.code "&lt;" "&gt;") types := by
  cases types with
  | nil => rfl
  | cons type rest =>
      rw [targetsAll, List.forall_mem_append] at all
      rw [allWithout, textsIn, textsIn, textIn_without type all.1,
        textsIn_allWithout rest all.2]

end

/-! ## Stripping the text of a type -/

section

variable {id : EntityId}

theorem stripsTo_head {name : String} {target : Option EntityId} (strippable : id.Strippable)
    (named : name ≠ "") (free : BracketFree name.toList)
    (targets : ∀ other ∈ target, other.Strippable) :
    StripsTo id.text.toList (Style.prose.head name target)
      (Style.prose.head name (target.filter fun other => !decide (other = id))) := by
  cases target with
  | none => exact .of_bracketFree free
  | some other =>
      by_cases same : other = id
      · rw [same, Option.filter_some_neg (by simp)]
        exact .link named free
      · have differs : other.text.toList ≠ id.text.toList := fun texts =>
          same (EntityId.eq_iff.mpr (String.toList_inj.mp texts))
        rw [Option.filter_some_pos (by simpa using same)]
        exact .other_link free (targets other rfl).bracketFree strippable.nonempty
          strippable.bracketFree differs

theorem stripsTo_arrayText {element stripped : TypeExpr} {text strippedText : String}
    (same : stripped.isJoined = element.isJoined)
    (strips : StripsTo id.text.toList text strippedText) :
    StripsTo id.text.toList (arrayText element text) (arrayText stripped strippedText) := by
  have ends : ∀ inner : String, "(" ++ inner ++ ")[]" = "(" ++ inner ++ ")" ++ "[]" := by
    intro inner
    rw [@String.append_assoc _ ")" "[]"]
    rfl
  rw [arrayText, arrayText, same]
  split
  · rw [ends, ends]
    refine StripsTo.array ((strips.after (by decide)).append (.of_bracketFree (by decide)) ?_)
    intro rest _
    exact .of_separates (by decide)
  · exact strips.array

theorem stripsTo_argumentsText {head strippedHead : String} {texts strippedTexts : List String}
    (first : StripsTo id.text.toList head strippedHead)
    (each : List.Forall₂ (StripsTo id.text.toList) texts strippedTexts) :
    StripsTo id.text.toList (head ++ argumentsText "&lt;" "&gt;" texts)
      (strippedHead ++ argumentsText "&lt;" "&gt;" strippedTexts) := by
  have inside := StripsTo.joined (by decide : Separates ", ") each
  cases each with
  | nil =>
      have nothing : StripsTo id.text.toList "" "" := .of_bracketFree .nil
      apply first.append nothing
      intro rest detached
      exact detached
  | cons _ _ =>
      have closing : StripsTo id.text.toList "&gt;" "&gt;" := .of_bracketFree (by decide)
      have whole := first.append_separator (by decide : Separates "&lt;")
        (inside.append closing fun rest _ => .of_separates (by decide))
      simpa [argumentsText, String.append_assoc] using whole

mutual

/-- The text of a type is stripped to that of the type without the target. -/
theorem stripsTo_textIn (type : TypeExpr) (strippable : id.Strippable)
    (inside : type.Strippable) :
    StripsTo id.text.toList (type.textIn .prose) ((type.without (· = id)).textIn .prose) := by
  cases type with
  | keyword name => exact .of_bracketFree inside
  | literal text => exact .of_bracketFree inside
  | reference name target arguments =>
      obtain ⟨named, free, targets, later⟩ := inside
      exact stripsTo_argumentsText (stripsTo_head strippable named free targets)
        (stripsTo_textsIn arguments strippable later)
  | array element =>
      exact stripsTo_arrayText (isJoined_without _ element)
        (stripsTo_textIn element strippable inside)
  | union types =>
      exact .joined (by decide) (stripsTo_textsIn types strippable inside)
  | intersection types =>
      exact .joined (by decide) (stripsTo_textsIn types strippable inside)
  | tuple types =>
      exact .tuple strippable.nonempty strippable.bracketFree
        (.joined (by decide) (stripsTo_textsIn types strippable inside))

theorem stripsTo_textsIn (types : List TypeExpr) (strippable : id.Strippable)
    (inside : AllStrippable types) :
    List.Forall₂ (StripsTo id.text.toList) (textsIn .prose types)
      (textsIn .prose (allWithout (· = id) types)) := by
  cases types with
  | nil => exact .nil
  | cons type rest =>
      exact .cons (stripsTo_textIn type strippable inside.1)
        (stripsTo_textsIn rest strippable inside.2)

end

end

/-- Stripping a line of several entities in turn takes their targets out of the type. -/
theorem foldl_lines_textIn {ids : List EntityId} (each : ∀ id ∈ ids, id.Strippable)
    {type : TypeExpr} (strippable : type.Strippable) :
    ids.foldl (fun lines id => Stripping.lines id lines) [type.textIn .prose] =
      [(type.without (· ∈ ids)).textIn .prose] := by
  induction ids generalizing type with
  | nil => simp [without_none]
  | cons id rest ih =>
      rw [List.forall_mem_cons] at each
      have first : Stripping.lines id [type.textIn .prose] =
          [(type.without (· = id)).textIn .prose] :=
        congrArg ([·]) (stripsTo_textIn type each.1 strippable).line_eq
      rw [List.foldl_cons, first, ih each.2 (strippable_without type strippable _), without_without]
      simp only [List.mem_cons, Bool.decide_or]

/-- Stripping the links to some entities from the line that a type is written on undoes linking:
the line becomes that of the type without these targets, and all other links stay, in their
order.  The entities can be given in any order, and more than once.  When they are all targets
of the type, the line is that of the type in code, with other brackets around type arguments. -/
theorem stripping_undoes_linking {type : TypeExpr} {ids : List EntityId}
    (strippable : type.Strippable) (each : ∀ id ∈ ids, id.Strippable) (used : References) :
    (∀ other, ids.foldl (fun lines id => Stripping.lines id lines) [(type.linked used).1] =
        [((type.without (· ∈ ids)).linked other).1]) ∧
      (type.without (· ∈ ids)).targets = type.targets.filter (· ∉ ids) ∧
      (∀ others : List EntityId, (∀ id, id ∈ others ↔ id ∈ ids) →
        others.foldl (fun lines id => Stripping.lines id lines) [(type.linked used).1] =
          ids.foldl (fun lines id => Stripping.lines id lines) [(type.linked used).1]) ∧
      type.plain = type.textIn (.code "<" ">") ∧
      ((∀ id ∈ type.targets, id ∈ ids) →
        ids.foldl (fun lines id => Stripping.lines id lines) [(type.linked used).1] =
          [type.textIn (.code "&lt;" "&gt;")]) := by
  simp only [text_linked, foldl_lines_textIn each strippable]
  refine ⟨fun _ => trivial, ?_, fun others same => ?_, plain_eq_textIn type, fun all => ?_⟩
  · rw [targets_without]
    simp only [decide_not]
  · rw [foldl_lines_textIn (fun id held => each id ((same id).mp held)) strippable]
    simp only [same]
  · rw [textIn_without type fun id isTarget => decide_eq_true (all id isTarget)]

/-- A tuple of an array of tuples and an array of a reference with arguments. -/
def grid : TypeExpr :=
  .tuple
    [.array (.tuple
      [.reference "Point" (some ⟨"type:Point"⟩) [],
       .reference "area" (some ⟨"function:area"⟩) []]),
     .array (.reference "Map" (some ⟨"class:Map"⟩)
       [.keyword "string", .reference "Point" (some ⟨"type:Point"⟩) []])]

/-- Two of the entities that the grid links to, one of them twice. -/
def strippedOfGrid : List EntityId := [⟨"type:Point"⟩, ⟨"class:Map"⟩, ⟨"type:Point"⟩]

/-- The grid is stripped of these two, and the link to the third stays. -/
theorem stripping_of_grid_undoes_linking :
    grid.Strippable ∧ (∀ id ∈ strippedOfGrid, id.Strippable) ∧
      (grid.linked .empty).1 = "[[[Point][type:Point], [area][function:area]][], " ++
        "[Map][class:Map]&lt;string, [Point][type:Point]&gt;[]]" ∧
      strippedOfGrid.foldl (fun lines id => Stripping.lines id lines) [(grid.linked .empty).1] =
        ["[[Point, [area][function:area]][], Map&lt;string, Point&gt;[]]"] := by
  have strippable : grid.Strippable := by
    simp only [grid, Strippable, AllStrippable]
    decide
  have each : ∀ id ∈ strippedOfGrid, id.Strippable := by decide
  refine ⟨strippable, each, by decide +kernel, ?_⟩
  rw [(stripping_undoes_linking strippable each .empty).1 .empty]
  decide +kernel

end TypeExpr

end ApiManual
