import ApiManual.Page.Render
import ApiManual.Site.Stripping
import Mathlib.Logic.Relation

/-!
# How pages end

Every part of a page closes with an empty line: a paragraph, a list, a block of code, and so the
text of an entity and the section of a group of members.  Whatever parts are present, what is
written below a page does not continue its last paragraph.  A part that ended otherwise would show
only where nothing comes behind it, so the rule is stated for each of them.
-/

namespace ApiManual

open Markdown (Block)

namespace Markdown

/-! ## Lines and blocks -/

/-- Lines that leave no paragraph open: there are none, or the last one is empty. -/
def EndBlank (lines : List String) : Prop := ∀ last ∈ lines.getLast?, last = ""

/-- Blocks whose lines leave no paragraph open. -/
def BlocksEndBlank (blocks : List Block) : Prop := EndBlank (toLines blocks)

variable {lines rest : List String} {left right : List Block}

theorem endBlank_nil : EndBlank [] := by
  rintro _ ⟨⟩

theorem endBlank_concat (lines : List String) : EndBlank (lines ++ [""]) := by
  intro last isLast
  rw [List.getLast?_concat, Option.mem_some_iff] at isLast
  exact isLast.symm

/-- A part that is empty leaves the end to what is before it. -/
theorem EndBlank.append (first : EndBlank lines) (second : EndBlank rest) :
    EndBlank (lines ++ rest) := by
  intro last isLast
  rw [List.getLast?_append] at isLast
  cases behind : rest.getLast? with
  | none =>
      rw [behind] at isLast
      exact first last isLast
  | some other =>
      rw [behind] at isLast
      exact second last (behind ▸ isLast)

theorem EndBlank.flatMap {α : Type} {values : List α} {make : α → List String}
    (each : ∀ value ∈ values, EndBlank (make value)) : EndBlank (values.flatMap make) := by
  induction values with
  | nil => exact endBlank_nil
  | cons value rest ih =>
      rw [List.forall_mem_cons] at each
      exact each.1.append (ih each.2)

theorem EndBlank.getLast?_eq (ended : EndBlank lines) (nonempty : lines ≠ []) :
    lines.getLast? = some "" := by
  have isLast := List.getLast?_eq_some_getLast nonempty
  rw [isLast, ended _ isLast]

theorem BlocksEndBlank.append (first : BlocksEndBlank left) (second : BlocksEndBlank right) :
    BlocksEndBlank (left ++ right) := by
  rw [BlocksEndBlank, toLines, List.flatMap_append]
  exact EndBlank.append first second

theorem BlocksEndBlank.flatMap {α : Type} {values : List α} {make : α → List Block}
    (each : ∀ value ∈ values, BlocksEndBlank (make value)) :
    BlocksEndBlank (values.flatMap make) := by
  rw [BlocksEndBlank, toLines, List.flatMap_assoc]
  exact EndBlank.flatMap each

theorem blocksEndBlank_nil : BlocksEndBlank [] := endBlank_nil

theorem blocksEndBlank_singleton {block : Block} (ended : EndBlank block.toLines) :
    BlocksEndBlank [block] := by
  rw [BlocksEndBlank, toLines, List.flatMap_singleton]
  exact ended

theorem blocksEndBlank_concat (blocks : List Block) :
    BlocksEndBlank (blocks ++ [.emptyLine]) := by
  rw [BlocksEndBlank, toLines, List.flatMap_append]
  exact endBlank_concat _

theorem endBlank_code (language : String) (body : List String) :
    EndBlank (Block.code language body).toLines := by
  have whole : (Block.code language body).toLines =
      (fence ++ language) :: body ++ [fence] ++ [""] := by simp [Block.toLines]
  rw [whole]
  exact endBlank_concat _

end Markdown

open Markdown (EndBlank endBlank_nil endBlank_code BlocksEndBlank blocksEndBlank_nil
  blocksEndBlank_singleton blocksEndBlank_concat)

namespace Prose

/-! ## Prose -/

theorem blocksEndBlank_paragraph (text : String) : BlocksEndBlank (paragraph text) :=
  blocksEndBlank_concat [.text text]

theorem blocksEndBlank_titledList (title : String) (items : List String) :
    BlocksEndBlank (titledList title items) := by
  rw [titledList]
  split
  · exact blocksEndBlank_nil
  · exact blocksEndBlank_concat [.text title, .emptyLine, .list _]

theorem blocksEndBlank_mark (set : Bool) (text : String) : BlocksEndBlank (mark set text) := by
  rw [mark]
  split
  · exact blocksEndBlank_concat [.quote text]
  · exact blocksEndBlank_nil

theorem blocksEndBlank_introduction (doc : DocComment) : BlocksEndBlank (introduction doc) := by
  refine (((BlocksEndBlank.append ?deprecation (blocksEndBlank_mark _ _)).append
    (blocksEndBlank_mark _ _)).append ?summary).append ?description
  case deprecation =>
    split
    · exact blocksEndBlank_nil
    · exact blocksEndBlank_mark true _
  case summary =>
    split
    · exact blocksEndBlank_nil
    · exact blocksEndBlank_paragraph _
  case description =>
    split
    · exact blocksEndBlank_nil
    · exact blocksEndBlank_paragraph _

theorem blocksEndBlank_examples (texts : List String) : BlocksEndBlank (examples texts) := by
  rw [examples]
  split
  · exact blocksEndBlank_nil
  · have code : BlocksEndBlank (texts.map fun text => .code "" (Text.lines text)) := by
      rw [BlocksEndBlank, Markdown.toLines, List.flatMap_map]
      exact .flatMap fun text _ => endBlank_code "" (Text.lines text)
    exact (blocksEndBlank_concat [.text "**Examples**"]).append code

/-- An action makes values with a property, whatever was used before it. -/
def Makes {α : Type} (holds : α → Prop) (action : Linked α) : Prop :=
  ∀ used, holds (action used).1

namespace Makes

variable {α β : Type} {holds : α → Prop} {later : β → Prop} {action : Linked α}
  {next : α → Linked β}

theorem pure {value : α} (held : holds value) : Makes holds (Pure.pure value) := fun _ => held

theorem bind (first : Makes holds action)
    (second : ∀ value, holds value → Makes later (next value)) : Makes later (action >>= next) :=
  fun used => second _ (first used) _

theorem andThen (second : ∀ value, Makes later (next value)) : Makes later (action >>= next) :=
  fun _ => second _ _

end Makes

theorem makes_heritageList (label : String) (types : List TypeExpr) :
    Makes BlocksEndBlank (heritageList label types) := by
  simp only [heritageList]
  split
  · exact .pure blocksEndBlank_nil
  · exact .andThen fun text => .pure (blocksEndBlank_paragraph (label ++ text))

theorem makes_heritage (declaration : Declaration) :
    Makes BlocksEndBlank (heritage declaration) := by
  cases declaration with
  | classType typeParameters base interfaces members isAbstract =>
      exact (makes_heritageList _ base.toList).bind fun _ extended =>
        (makes_heritageList _ interfaces).bind fun _ implemented =>
          .pure (extended.append implemented)
  | interfaceType typeParameters bases members => exact makes_heritageList _ bases
  | _ => exact .pure blocksEndBlank_nil

theorem makes_returns (doc : DocComment) (type : Option TypeExpr) :
    Makes BlocksEndBlank (returns doc type) := by
  cases type with
  | none => exact .pure blocksEndBlank_nil
  | some type => exact .andThen fun _ => .pure (blocksEndBlank_paragraph _)

theorem makes_value (type : Option TypeExpr) : Makes BlocksEndBlank (value type) := by
  cases type with
  | none => exact .pure blocksEndBlank_nil
  | some type => exact .andThen fun _ => .pure (blocksEndBlank_paragraph _)

/-- The prose after a signature leaves no paragraph open. -/
theorem makes_details (catalog : Catalog) (entity : Entity) (doc : DocComment) :
    Makes BlocksEndBlank (details catalog entity doc) := by
  simp only [details]
  split
  · exact .pure blocksEndBlank_nil
  · refine (makes_heritage entity.declaration).bind fun heritage extended => ?_
    refine .andThen fun typeParameters => .andThen fun parameters => ?_
    refine (makes_returns doc _).bind fun returns returned => ?_
    refine (makes_value _).bind fun value typed => .pure ?_
    have generic := blocksEndBlank_titledList "**Type parameters**" typeParameters
    have taken := blocksEndBlank_titledList "**Parameters**" parameters
    have shown := blocksEndBlank_examples doc.examples
    have pointed := blocksEndBlank_titledList "**See also**" doc.seeAlso
    exact (((((extended.append generic).append taken).append returned).append typed).append
      shown).append pointed

end Prose

namespace Page

/-! ## Pages -/

variable {catalog : Catalog} {language title : String} {entity : Entity} {level : Nat}

theorem blocksEndBlank_body : BlocksEndBlank (body catalog language entity title level).1 := by
  have code : BlocksEndBlank (if (Signature.lines catalog entity title).isEmpty then []
      else [.code language (Signature.lines catalog entity title)]) := by
    split
    · exact blocksEndBlank_nil
    · exact blocksEndBlank_singleton (endBlank_code language _)
  have details : BlocksEndBlank _ :=
    Prose.makes_details catalog entity entity.docComment (.singleton entity.id)
  exact (blocksEndBlank_concat [.header level title]).append
    (((Prose.blocksEndBlank_introduction entity.docComment).append code).append details)

/-- The text of an entity begins with its header, so there is a last line. -/
theorem getLast?_toLines_body {sections : List Block} (ended : BlocksEndBlank sections) :
    (Markdown.toLines ((body catalog language entity title level).1 ++ sections)).getLast? =
      some "" :=
  (blocksEndBlank_body.append ended).getLast?_eq (List.cons_ne_nil _ _)

theorem getLast?_content_item :
    (item catalog language entity title level).content.getLast? = some "" := by
  have whole : (Markdown.toLines ((body catalog language entity title level).1 ++ [])).getLast? =
      some "" := getLast?_toLines_body blocksEndBlank_nil
  rwa [List.append_nil] at whole

/-- A member that is only listed leaves no line, and any other one ends with an empty line. -/
theorem endBlank_content_part (member : Entity) :
    EndBlank (part catalog language member).content := by
  rw [part]
  split
  · exact endBlank_nil
  · intro last isLast
    rw [getLast?_content_item, Option.mem_some_iff] at isLast
    exact isLast.symm

theorem blocksEndBlank_groupBlocks {group : MemberGroup} {parts : List Part}
    (each : ∀ part ∈ parts, EndBlank part.content) : BlocksEndBlank (groupBlocks group parts) := by
  simp only [groupBlocks]
  split
  · exact blocksEndBlank_nil
  · have shown : BlocksEndBlank [.lines (parts.flatMap (·.content))] :=
      blocksEndBlank_singleton (EndBlank.flatMap each)
    have listed : BlocksEndBlank (if (parts.flatMap (·.entries)).isEmpty then []
        else [.list (parts.flatMap (·.entries)), .emptyLine]) := by
      split
      · exact blocksEndBlank_nil
      · exact blocksEndBlank_concat [.list _]
    exact ((blocksEndBlank_concat [.header groupLevel group.label]).append shown).append listed

/-- The page of an entity ends with an empty line. -/
theorem getLast?_content_render (catalog : Catalog) (language : String) (entity : Entity)
    (identity : Identity) :
    (render catalog language entity identity).content.getLast? = some "" := by
  rw [render]
  split
  · exact getLast?_content_item
  · apply getLast?_toLines_body
    refine .flatMap fun gathered given => ?_
    obtain ⟨group, _, rfl⟩ := List.mem_map.mp given
    apply blocksEndBlank_groupBlocks
    intro shown inside
    obtain ⟨member, _, rfl⟩ := List.mem_map.mp inside
    exact endBlank_content_part member

/-- A page is another one or below it. -/
abbrev IsBelow (page top : Page) : Prop :=
  Relation.ReflTransGen (fun outer inner => inner ∈ outer.members) top page

/-- What is below the page of an entity is the page of an entity. -/
theorem exists_render_of_isBelow {identity : Identity} {page : Page}
    (below : page.IsBelow (render catalog language entity identity)) :
    ∃ entity identity, page = render catalog language entity identity := by
  induction below with
  | refl => exact ⟨entity, identity, rfl⟩
  | tail _ inside ih =>
      obtain ⟨outer, identity, rfl⟩ := ih
      rw [members_render] at inside
      obtain ⟨member, _, rfl⟩ := List.mem_map.mp inside
      exact ⟨member, .of member, rfl⟩

end Page

/-! ## Stripped lines -/

namespace Stripping

theorem line_empty (id : EntityId) : line id "" = "" := by
  simp [line, strip]

/-- However many links are stripped, an empty line at the end stays empty. -/
theorem getLast?_foldl_lines (ids : List EntityId) {content : List String}
    (ended : content.getLast? = some "") :
    (ids.foldl (fun content id => lines id content) content).getLast? = some "" := by
  induction ids generalizing content with
  | nil => exact ended
  | cons id rest ih =>
      have stripped : (lines id content).getLast? = some "" := by
        rw [lines, List.getLast?_map, ended, Option.map_some, line_empty]
      exact ih stripped

end Stripping

end ApiManual
