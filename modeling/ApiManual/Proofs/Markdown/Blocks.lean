import ApiManual.Proofs.Markdown.Stripping

/-!
# Blocks with links

How the links of lines follow from the links of the texts that the lines are made
of.  Texts are put together from parts that may stand anywhere and parts that may
only stand where no bracket has just been closed.
-/

namespace ApiManual

open Stripping (BracketFree)

namespace Markdown

variable {allowed : EntityId → Prop} {front text rest : String}

/-! ## Texts -/

/-- Text that keeps what follows it apart from a closing bracket. -/
structure Separates (text : String) : Prop where
  bracketFree : BracketFree text.toList
  nonempty : text ≠ ""

instance (text : String) : Decidable (Separates text) :=
  decidable_of_iff (BracketFree text.toList ∧ text ≠ "")
    ⟨fun ⟨bracketFree, nonempty⟩ => ⟨bracketFree, nonempty⟩,
      fun separates => ⟨separates.bracketFree, separates.nonempty⟩⟩

/-- The links of a text lead to allowed entities. -/
def LinksTo (allowed : EntityId → Prop) (text : String) : Prop :=
  LinksAmong allowed false text.toList

/-- The links of a text lead to allowed entities, also directly after a closing
bracket. -/
def Attaches (allowed : EntityId → Prop) (text : String) : Prop :=
  LinksAmong allowed true text.toList

theorem LinksTo.mono {larger : EntityId → Prop} (within : ∀ id, allowed id → larger id)
    (links : LinksTo allowed text) : LinksTo larger text :=
  LinksAmong.mono within links

theorem LinksTo.of_bracketFree (free : BracketFree text.toList) : LinksTo allowed text :=
  LinksAmong.of_bracketFree free

theorem Attaches.of_bracketFree (free : BracketFree text.toList) : Attaches allowed text :=
  LinksAmong.of_bracketFree free

theorem Attaches.linksTo (attaches : Attaches allowed text) : LinksTo allowed text :=
  LinksAmong.relax attaches

theorem LinksTo.append (links : LinksTo allowed text) (later : Attaches allowed rest) :
    LinksTo allowed (text ++ rest) := by
  rw [LinksTo, String.toList_append]
  exact LinksAmong.append links later

theorem Attaches.append (attaches : Attaches allowed text) (later : Attaches allowed rest) :
    Attaches allowed (text ++ rest) := by
  rw [Attaches, String.toList_append]
  exact LinksAmong.append attaches later

theorem LinksTo.after (links : LinksTo allowed text) (free : BracketFree front.toList) :
    LinksTo allowed (front ++ text) := by
  rw [LinksTo, String.toList_append]
  exact LinksAmong.append_of_bracketFree free links

theorem LinksTo.attaches_after (links : LinksTo allowed text) (separates : Separates front) :
    Attaches allowed (front ++ text) := by
  have free := separates.bracketFree
  rw [Attaches, String.toList_append]
  cases frontEq : front.toList with
  | nil => exact absurd (String.toList_eq_nil_iff.mp frontEq) separates.nonempty
  | cons char chars =>
      rw [frontEq, Stripping.bracketFree_cons] at free
      exact .text free.1 (LinksAmong.append_of_bracketFree free.2 links)

theorem LinksTo.opening (links : LinksTo allowed text) : LinksTo allowed ("[" ++ text) := by
  rw [LinksTo, String.toList_append]
  exact LinksAmong.opening links

theorem Attaches.closing (attaches : Attaches allowed text) :
    Attaches allowed ("]" ++ text) := by
  rw [Attaches, String.toList_append]
  exact LinksAmong.closing attaches

theorem attaches_closing : Attaches allowed "]" := LinksAmong.closing .nil

theorem attaches_suffix : Attaches allowed "[]" := LinksAmong.suffix .nil

theorem toList_link (name : String) (id : EntityId) :
    (link name id).toList =
      '[' :: (name.toList ++ Stripping.linkEnd id.text.toList) := by
  simp [link, Stripping.linkEnd]

theorem linksTo_link {name : String} {id : EntityId} (free : BracketFree name.toList)
    (oneLine : '\n' ∉ name.toList) (safe : id.LinkSafe) (known : allowed id) :
    LinksTo allowed (link name id) := by
  rw [LinksTo, toList_link, ← List.append_nil (Stripping.linkEnd id.text.toList)]
  exact .link free oneLine safe (fun _ => known) .nil

/-- A definition holds no link. -/
theorem linksTo_linkDefinition {id : EntityId} {target : String} (safe : id.LinkSafe)
    (free : BracketFree target.toList) : LinksTo allowed (linkDefinition id target) := by
  have ends : Attaches allowed ("]" ++ (": " ++ target)) := by
    apply Attaches.closing
    apply Attaches.of_bracketFree
    exact .concat (by decide) free
  have whole := (LinksTo.of_bracketFree safe.bracketFree).append ends
  have mark : "]: " = "]" ++ ": " := by decide
  rw [linkDefinition, mark, String.append_assoc, String.append_assoc, String.append_assoc]
  exact whole.opening

theorem linksTo_joined {separator : String} {texts : List String}
    (separates : Separates separator) (each : ∀ text ∈ texts, LinksTo allowed text) :
    LinksTo allowed (Text.joined separator texts) := by
  induction texts with
  | nil => exact LinksAmong.nil
  | cons first later ih =>
      rw [List.forall_mem_cons] at each
      cases later with
      | nil =>
          rw [Text.joined, String.intercalate_singleton]
          exact each.1
      | cons second later =>
          rw [Text.joined, String.intercalate_cons_cons, String.append_assoc]
          exact each.1.append ((ih each.2).attaches_after separates)

/-- A link that stands in a text leads to an allowed entity. -/
theorem LinksTo.allowed_of_link {name : String} {id : EntityId}
    (links : LinksTo allowed text) (named : name ≠ "") (nonempty : id.text ≠ "")
    (nameFree : BracketFree name.toList) (free : BracketFree id.text.toList)
    (found : (link name id).toList <:+: text.toList) : allowed id := by
  rw [toList_link] at found
  exact LinksAmong.allowed_of_infix (fun empty => named (String.toList_eq_nil_iff.mp empty))
    nameFree (fun empty => nonempty (String.toList_eq_nil_iff.mp empty)) free links found

theorem LinksTo.strip {id : EntityId} (links : LinksTo allowed text) (safe : id.LinkSafe) :
    LinksTo (fun other => allowed other ∧ other ≠ id) (Stripping.line id text) := by
  rw [LinksTo, Stripping.line, String.toList_ofList]
  exact LinksAmong.strip safe links

theorem LinksTo.lines (links : LinksTo allowed text) :
    ∀ line ∈ Text.lines text, LinksTo allowed line := by
  intro line member
  obtain ⟨chars, cut, rfl⟩ := List.mem_map.mp member
  rw [LinksTo, String.toList_ofList]
  exact LinksAmong.linesOf links |>.links chars cut

/-! ## Blocks -/

/-- The links of the lines of a block lead to allowed entities. -/
def Block.LinksTo (allowed : EntityId → Prop) (block : Block) : Prop :=
  ∀ line ∈ block.toLines, Markdown.LinksTo allowed line

theorem linksTo_toLines {blocks : List Block} (each : ∀ block ∈ blocks, block.LinksTo allowed) :
    ∀ line ∈ toLines blocks, LinksTo allowed line := by
  intro line member
  obtain ⟨block, held, inside⟩ := List.mem_flatMap.mp member
  exact each block held line inside

theorem bracketFree_replicate {char : Char} (count : Nat)
    (free : Stripping.isLinkText char = true) :
    BracketFree (String.ofList (List.replicate count char)).toList := by
  rw [String.toList_ofList]
  exact fun _ member => List.eq_of_mem_replicate member ▸ free

theorem linksTo_header {level : Nat} {title : String} (free : BracketFree title.toList) :
    (Block.header level title).LinksTo allowed := by
  intro line member
  rw [Block.toLines, List.mem_singleton] at member
  subst member
  apply Markdown.LinksTo.of_bracketFree
  have marks : BracketFree (String.ofList (List.replicate (min (max level 1) 6) '#')).toList :=
    bracketFree_replicate _ (by decide)
  exact (marks.concat (by decide)).concat free

theorem linksTo_emptyLine : Block.emptyLine.LinksTo allowed := by
  intro line member
  rw [Block.toLines, List.mem_singleton] at member
  subst member
  exact LinksAmong.nil

theorem linksTo_text (links : LinksTo allowed text) : (Block.text text).LinksTo allowed :=
  links.lines

theorem linksTo_code {language : String} {body : List String}
    (free : BracketFree language.toList) (each : ∀ line ∈ body, LinksTo allowed line) :
    (Block.code language body).LinksTo allowed := by
  intro line member
  simp only [Block.toLines, List.cons_append, List.mem_cons, List.mem_append,
    List.not_mem_nil, or_false] at member
  rcases member with rfl | inBody | rfl | rfl
  · apply Markdown.LinksTo.of_bracketFree
    exact .concat (by decide) free
  · exact each line inBody
  · exact Markdown.LinksTo.of_bracketFree (by decide)
  · exact LinksAmong.nil

theorem linksTo_quote (links : LinksTo allowed text) : (Block.quote text).LinksTo allowed := by
  intro line member
  obtain ⟨quoted, cut, rfl⟩ := List.mem_map.mp member
  have inside := links.lines quoted cut
  simp only [quotedLine]
  split
  · exact Markdown.LinksTo.of_bracketFree (by decide)
  · exact inside.after (by decide)

mutual

/-- The texts of an entry and of all that is nested below it. -/
def ListItem.texts : ListItem → List String
  | ⟨text, items⟩ => text :: ListItem.textsOf items

/-- The texts of entries and of all that is nested below them. -/
def ListItem.textsOf : List ListItem → List String
  | [] => []
  | item :: rest => item.texts ++ ListItem.textsOf rest

end

mutual

theorem linksTo_itemLines (depth : Nat) : (item : ListItem) →
    (∀ text ∈ item.texts, LinksTo allowed text) →
    ∀ line ∈ itemLines depth item, LinksTo allowed line
  | ⟨text, items⟩, each => by
      rw [ListItem.texts, List.forall_mem_cons] at each
      rw [itemLines, List.forall_mem_cons]
      refine ⟨?_, linksTo_listLines (depth + 1) items each.2⟩
      apply each.1.after
      have indent : BracketFree (listIndent depth).toList :=
        bracketFree_replicate _ (by decide)
      exact indent.concat (by decide)

/-- The lines of a list hold the links of its texts. -/
theorem linksTo_listLines (depth : Nat) : (items : List ListItem) →
    (∀ text ∈ ListItem.textsOf items, LinksTo allowed text) →
    ∀ line ∈ listLines depth items, LinksTo allowed line
  | [], _ => by simp [listLines]
  | item :: rest, each => by
      rw [ListItem.textsOf, List.forall_mem_append] at each
      rw [listLines, List.forall_mem_append]
      exact ⟨linksTo_itemLines depth item each.1, linksTo_listLines depth rest each.2⟩

end

theorem linksTo_list {items : List ListItem}
    (each : ∀ text ∈ ListItem.textsOf items, LinksTo allowed text) :
    (Block.list items).LinksTo allowed :=
  linksTo_listLines 0 items each

theorem mem_textsOf {items : List ListItem} {text : String} :
    text ∈ ListItem.textsOf items ↔ ∃ item ∈ items, text ∈ item.texts := by
  induction items with
  | nil => simp [ListItem.textsOf]
  | cons item rest ih => simp [ListItem.textsOf, ih]

end Markdown

end ApiManual
