import ApiManual.Proofs.Markdown.Blocks
import ApiManual.TypeExpr.Text

/-!
# Links in type texts

The linked text of a type links to exactly what is recorded while it is made, and
the plain text holds no link at all.  Both hold brackets of tuples and arrays.

An action that makes text while targets are recorded is described backwards: when
everything recorded in the end is allowed, so was everything recorded before, and
the text links to allowed entities only.  This composes along the action, although
the set of what is recorded grows.
-/

namespace ApiManual

open Markdown (LinksTo Attaches)
open Stripping (BracketFree)

/-- Texts that can be the text of a link. -/
structure LinkName (text : String) : Prop where
  bracketFree : BracketFree text.toList
  oneLine : '\n' ∉ text.toList

instance (text : String) : Decidable (LinkName text) :=
  decidable_of_iff (BracketFree text.toList ∧ '\n' ∉ text.toList)
    ⟨fun ⟨bracketFree, oneLine⟩ => ⟨bracketFree, oneLine⟩,
      fun name => ⟨name.bracketFree, name.oneLine⟩⟩

instance (id : EntityId) : Decidable id.LinkSafe :=
  decidable_of_iff (id.text.toList ≠ [] ∧ LinkName id.text)
    ⟨fun ⟨nonempty, name⟩ => ⟨nonempty, name.bracketFree, name.oneLine⟩,
      fun safe => ⟨safe.nonempty, safe.bracketFree, safe.oneLine⟩⟩

namespace TypeExpr

mutual

/-- All names in a type expression can be the text of a link, and all targets can be
linked to. -/
def LinkSafe : TypeExpr → Prop
  | .keyword name => LinkName name
  | .reference name target arguments =>
      LinkName name ∧ (∀ id ∈ target, id.LinkSafe) ∧ AllLinkSafe arguments
  | .array element => element.LinkSafe
  | .union types => AllLinkSafe types
  | .intersection types => AllLinkSafe types
  | .tuple types => AllLinkSafe types
  | .literal text => LinkName text

/-- The same for each of several type expressions. -/
def AllLinkSafe : List TypeExpr → Prop
  | [] => True
  | type :: rest => type.LinkSafe ∧ AllLinkSafe rest

end

mutual

/-- Whether all names and targets in a type expression can be linked. -/
def decidableLinkSafe : (type : TypeExpr) → Decidable type.LinkSafe
  | .keyword name => inferInstanceAs (Decidable (LinkName name))
  | .reference name target arguments =>
      have := decidableAllLinkSafe arguments
      inferInstanceAs (Decidable
        (LinkName name ∧ (∀ id ∈ target, id.LinkSafe) ∧ AllLinkSafe arguments))
  | .array element => decidableLinkSafe element
  | .union types => decidableAllLinkSafe types
  | .intersection types => decidableAllLinkSafe types
  | .tuple types => decidableAllLinkSafe types
  | .literal text => inferInstanceAs (Decidable (LinkName text))

/-- The same for each of several type expressions. -/
def decidableAllLinkSafe : (types : List TypeExpr) → Decidable (AllLinkSafe types)
  | [] => inferInstanceAs (Decidable True)
  | type :: rest =>
      have := decidableLinkSafe type
      have := decidableAllLinkSafe rest
      inferInstanceAs (Decidable (type.LinkSafe ∧ AllLinkSafe rest))

end

instance (type : TypeExpr) : Decidable type.LinkSafe := type.decidableLinkSafe

theorem allLinkSafe_iff {types : List TypeExpr} :
    AllLinkSafe types ↔ ∀ type ∈ types, type.LinkSafe := by
  induction types with
  | nil => simp [AllLinkSafe]
  | cons type rest ih => simp [AllLinkSafe, ih]

variable {allowed : EntityId → Prop} {text : String} {texts : List String}

/-! ## Parts of type texts -/

theorem linksTo_commaList (each : ∀ text ∈ texts, LinksTo allowed text) :
    LinksTo allowed (Text.joined ", " texts) :=
  Markdown.linksTo_joined (by decide) each

theorem linksTo_arrayText {element : TypeExpr} (links : LinksTo allowed text) :
    LinksTo allowed (arrayText element text) := by
  simp only [arrayText]
  split
  · have ends : Attaches allowed ")[]" := .text (by decide) (.suffix .nil)
    exact (links.after (by decide)).append ends
  · exact links.append Markdown.attaches_suffix

theorem attaches_argumentsText {opening closing : String}
    (separates : Markdown.Separates opening) (closingFree : BracketFree closing.toList)
    (each : ∀ text ∈ texts, LinksTo allowed text) :
    Attaches allowed (argumentsText opening closing texts) := by
  simp only [argumentsText]
  split
  · exact .nil
  · exact ((linksTo_commaList each).attaches_after separates).append
      (.of_bracketFree closingFree)

theorem linksTo_tupleText (each : ∀ text ∈ texts, LinksTo allowed text) :
    LinksTo allowed ("[" ++ Text.joined ", " texts ++ "]") :=
  (linksTo_commaList each).opening.append Markdown.attaches_closing

/-! ## Plain text -/

mutual

/-- The plain text of a type holds no link. -/
theorem linksTo_plain : (type : TypeExpr) → type.LinkSafe → LinksTo allowed type.plain
  | .keyword name, safe => by
      rw [LinkSafe] at safe
      rw [plain]
      exact .of_bracketFree safe.bracketFree
  | .reference name target arguments, safe => by
      rw [LinkSafe] at safe
      rw [plain]
      apply (LinksTo.of_bracketFree safe.1.bracketFree).append
      exact attaches_argumentsText (by decide) (by decide)
        (linksTo_plainAll arguments safe.2.2)
  | .array element, safe => by
      rw [LinkSafe] at safe
      rw [plain]
      exact linksTo_arrayText (linksTo_plain element safe)
  | .union types, safe => by
      rw [LinkSafe] at safe
      rw [plain]
      exact Markdown.linksTo_joined (by decide) (linksTo_plainAll types safe)
  | .intersection types, safe => by
      rw [LinkSafe] at safe
      rw [plain]
      exact Markdown.linksTo_joined (by decide) (linksTo_plainAll types safe)
  | .tuple types, safe => by
      rw [LinkSafe] at safe
      rw [plain]
      exact linksTo_tupleText (linksTo_plainAll types safe)
  | .literal text, safe => by
      rw [LinkSafe] at safe
      rw [plain]
      exact .of_bracketFree safe.bracketFree

theorem linksTo_plainAll : (types : List TypeExpr) → AllLinkSafe types →
    ∀ text ∈ plainAll types, LinksTo allowed text
  | [], _ => by simp [plainAll]
  | type :: rest, safe => by
      rw [AllLinkSafe] at safe
      rw [plainAll, List.forall_mem_cons]
      exact ⟨linksTo_plain type safe.1, linksTo_plainAll rest safe.2⟩

end

theorem linksTo_plainOrUnknown {type : Option TypeExpr}
    (safe : ∀ given ∈ type.toList, given.LinkSafe) :
    LinksTo allowed (plainOrUnknown type) := by
  cases type with
  | none => exact .of_bracketFree (by decide)
  | some given => exact linksTo_plain given (safe given List.mem_cons_self)

end TypeExpr

/-! ## Recording -/

/-- An action makes a value while it records entities. When all that is recorded in
the end is allowed, so is what was recorded before, and the value is as it should be.
Only entities that can be linked to are added. -/
structure Recording {α : Type} (allowed : EntityId → Prop)
    (action : References → α × References) (holds : α → Prop) : Prop where
  earlier : ∀ used, (∀ id ∈ (action used).2.ids, allowed id) → ∀ id ∈ used.ids, allowed id
  value : ∀ used, (∀ id ∈ (action used).2.ids, allowed id) → holds (action used).1
  safe : ∀ used : References, (∀ id ∈ used.ids, id.LinkSafe) →
    ∀ id ∈ (action used).2.ids, id.LinkSafe

namespace Recording

variable {α β : Type} {allowed : EntityId → Prop} {action : References → α × References}
  {next : α → References → β × References} {holds : α → Prop} {later : β → Prop}

theorem of_value {value : α} (held : holds value) :
    Recording allowed (fun used => (value, used)) holds where
  earlier := fun _ within => within
  value := fun _ _ => held
  safe := fun _ safe => safe

/-- One action after another, where the second uses the value of the first. -/
theorem bind (first : Recording allowed action holds)
    (second : ∀ value, Recording allowed (next value) fun result => holds value → later result) :
    Recording allowed (fun used => next (action used).1 (action used).2) later where
  earlier := fun used within =>
    first.earlier used ((second _).earlier _ within)
  value := fun used within =>
    (second _).value _ within (first.value used ((second _).earlier _ within))
  safe := fun used safe => (second _).safe _ (first.safe used safe)

theorem map {f : α → β} (first : Recording allowed action holds)
    (each : ∀ value, holds value → later (f value)) :
    Recording allowed (fun used => (f (action used).1, (action used).2)) later :=
  first.bind fun value => of_value (each value)

theorem insert {value : α} {id : EntityId} (safe : id.LinkSafe)
    (held : allowed id → holds value) :
    Recording allowed (fun used => (value, used.insert id)) holds where
  earlier := fun used within other member =>
    within other (References.mem_ids_insert.mpr (.inl member))
  value := fun used within => held (within id (References.mem_ids_insert.mpr (.inr rfl)))
  safe := by
    intro used before other member
    rcases References.mem_ids_insert.mp member with old | rfl
    · exact before other old
    · exact safe

end Recording

namespace TypeExpr

variable {allowed : EntityId → Prop}

/-- The head of a reference: a link when its target is known. -/
theorem recording_head {name : String} {target : Option EntityId} (named : LinkName name)
    (safe : ∀ id ∈ target, id.LinkSafe) :
    Recording allowed
      (fun used => match target with
        | some id => (Markdown.link name id, used.insert id)
        | none => (name, used)) (LinksTo allowed) := by
  cases target with
  | none => exact .of_value (.of_bracketFree named.bracketFree)
  | some id =>
      have linkable := safe id rfl
      exact .insert linkable
        (Markdown.linksTo_link named.bracketFree named.oneLine linkable)

mutual

/-- The linked text of a type links to what is recorded. -/
theorem recording_linked : (type : TypeExpr) → type.LinkSafe →
    Recording allowed type.linked (LinksTo allowed)
  | .keyword name, safe => by
      rw [LinkSafe] at safe
      exact .of_value (.of_bracketFree safe.bracketFree)
  | .reference name target arguments, safe => by
      rw [LinkSafe] at safe
      have inside := recording_linkedAll arguments safe.2.2
      have whole := (recording_head safe.1 safe.2.1).bind fun head =>
        inside.map fun texts each linked => linked.append
          (attaches_argumentsText (by decide : Markdown.Separates "&lt;")
            (by decide : BracketFree "&gt;".toList) each)
      cases target with
      | none => exact whole
      | some id => exact whole
  | .array element, safe => by
      rw [LinkSafe] at safe
      exact (recording_linked element safe).map fun _ => linksTo_arrayText
  | .union types, safe => by
      rw [LinkSafe] at safe
      exact (recording_linkedAll types safe).map fun _ =>
        Markdown.linksTo_joined (by decide)
  | .intersection types, safe => by
      rw [LinkSafe] at safe
      exact (recording_linkedAll types safe).map fun _ =>
        Markdown.linksTo_joined (by decide)
  | .tuple types, safe => by
      rw [LinkSafe] at safe
      exact (recording_linkedAll types safe).map fun _ => linksTo_tupleText
  | .literal text, safe => by
      rw [LinkSafe] at safe
      exact .of_value (.of_bracketFree safe.bracketFree)

theorem recording_linkedAll : (types : List TypeExpr) → AllLinkSafe types →
    Recording allowed (linkedAll types) fun texts => ∀ text ∈ texts, LinksTo allowed text
  | [], _ => .of_value (List.forall_mem_nil _)
  | type :: rest, safe => by
      rw [AllLinkSafe] at safe
      exact (recording_linked type safe.1).bind fun text =>
        (recording_linkedAll rest safe.2).map fun texts each linked =>
          List.forall_mem_cons.mpr ⟨linked, each⟩

end

end TypeExpr

end ApiManual
