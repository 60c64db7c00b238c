import ApiManual.Page.Prose
import ApiManual.Proofs.Catalog.LinkSafe

/-!
# Links in the prose of an entity

Every part of the prose records what it links to, and so does the prose as a whole.
-/

namespace ApiManual

open Markdown (Block LinksTo Attaches Separates)
open Stripping (BracketFree)

namespace Recording

variable {α β : Type} {allowed : EntityId → Prop}

theorem andThen {action : Prose.Linked α} {next : α → Prose.Linked β} {holds : α → Prop}
    {later : β → Prop} (first : Recording allowed action holds)
    (second : ∀ value, Recording allowed (next value) fun result => holds value → later result) :
    Recording allowed (action >>= next) later :=
  first.bind second

theorem andReturn {action : Prose.Linked α} {f : α → β} {holds : α → Prop}
    {later : β → Prop} (first : Recording allowed action holds)
    (each : ∀ value, holds value → later (f value)) :
    Recording allowed (action >>= fun value => pure (f value)) later :=
  first.map each

/-- Making a value for each element in turn. -/
theorem mapM {holds : β → Prop} {make : α → Prose.Linked β} {values : List α}
    (each : ∀ value ∈ values, Recording allowed (make value) holds) :
    Recording allowed (values.mapM make) fun results => ∀ result ∈ results, holds result := by
  induction values with
  | nil => exact .of_value (List.forall_mem_nil _)
  | cons value rest ih =>
      rw [List.forall_mem_cons] at each
      rw [List.mapM_cons]
      exact each.1.bind fun first => (ih each.2).map fun others held firstHeld =>
        List.forall_mem_cons.mpr ⟨firstHeld, held⟩

end Recording

namespace Prose

variable {allowed : EntityId → Prop} {text : String} {doc : DocComment}

/-- The links of all blocks lead to allowed entities. -/
def BlocksLinkTo (allowed : EntityId → Prop) (blocks : List Block) : Prop :=
  ∀ block ∈ blocks, block.LinksTo allowed

theorem BlocksLinkTo.append {left right : List Block} (first : BlocksLinkTo allowed left)
    (second : BlocksLinkTo allowed right) : BlocksLinkTo allowed (left ++ right) :=
  List.forall_mem_append.mpr ⟨first, second⟩

theorem blocksLinkTo_nil : BlocksLinkTo allowed [] := List.forall_mem_nil _

theorem blocksLinkTo_paragraph (links : LinksTo allowed text) :
    BlocksLinkTo allowed (paragraph text) := by
  refine List.forall_mem_cons.mpr ⟨Markdown.linksTo_text links, ?_⟩
  exact List.forall_mem_singleton.mpr Markdown.linksTo_emptyLine

theorem blocksLinkTo_titledList {title : String} {items : List String}
    (titleFree : BracketFree title.toList) (each : ∀ text ∈ items, LinksTo allowed text) :
    BlocksLinkTo allowed (titledList title items) := by
  simp only [titledList]
  split
  · exact blocksLinkTo_nil
  · intro block member
    simp only [List.mem_cons, List.not_mem_nil, or_false] at member
    rcases member with rfl | rfl | rfl | rfl
    · exact Markdown.linksTo_text (.of_bracketFree titleFree)
    · exact Markdown.linksTo_emptyLine
    · apply Markdown.linksTo_list
      intro text inside
      obtain ⟨item, listed, textEq⟩ := Markdown.mem_textsOf.mp inside
      obtain ⟨shown, given, rfl⟩ := List.mem_map.mp listed
      rw [Markdown.ListItem.texts, Markdown.ListItem.textsOf, List.mem_singleton] at textEq
      exact textEq ▸ each shown given
    · exact Markdown.linksTo_emptyLine

/-! ## Before the signature -/

theorem blocksLinkTo_mark {set : Bool} (free : BracketFree text.toList) :
    BlocksLinkTo allowed (mark set text) := by
  cases set with
  | false => exact blocksLinkTo_nil
  | true =>
      refine List.forall_mem_cons.mpr ⟨Markdown.linksTo_quote (.of_bracketFree free), ?_⟩
      exact List.forall_mem_singleton.mpr Markdown.linksTo_emptyLine

/-- The introduction of a comment without brackets holds no link. -/
theorem blocksLinkTo_introduction (said : doc.Says fun text => BracketFree text.toList) :
    BlocksLinkTo allowed (introduction doc) := by
  refine (((BlocksLinkTo.append ?deprecation (blocksLinkTo_mark (by decide))).append
    (blocksLinkTo_mark (by decide))).append ?summary).append ?description
  case deprecation =>
    split
    · exact blocksLinkTo_nil
    · next reason given =>
        apply blocksLinkTo_mark
        split
        · decide
        · exact .concat (by decide) (said.deprecated reason given)
  case summary =>
    split
    · exact blocksLinkTo_nil
    · exact blocksLinkTo_paragraph (.of_bracketFree said.summary)
  case description =>
    split
    · exact blocksLinkTo_nil
    · next text given =>
        exact blocksLinkTo_paragraph (.of_bracketFree (said.description text given))

/-! ## After the signature -/

theorem recording_linkedOptional {introduction : String} {type : Option TypeExpr}
    (separates : Separates introduction) (safe : ∀ given ∈ type.toList, given.LinkSafe) :
    Recording allowed (linkedOptional introduction type) (Attaches allowed) := by
  cases type with
  | none => exact .of_value .nil
  | some given =>
      exact (TypeExpr.recording_linked given (safe given List.mem_cons_self)).map
        fun text links => links.attaches_after separates

theorem recording_linkedList {types : List TypeExpr} (safe : ∀ type ∈ types, type.LinkSafe) :
    Recording allowed (linkedList types) (LinksTo allowed) :=
  (TypeExpr.recording_linkedAll types (TypeExpr.allLinkSafe_iff.mpr safe)).map
    fun _ => TypeExpr.linksTo_commaList

theorem recording_heritageList {label : String} {types : List TypeExpr}
    (free : BracketFree label.toList) (safe : ∀ type ∈ types, type.LinkSafe) :
    Recording allowed (heritageList label types) (BlocksLinkTo allowed) := by
  simp only [heritageList]
  split
  · exact .of_value blocksLinkTo_nil
  · exact (recording_linkedList safe).map fun text links =>
      blocksLinkTo_paragraph (links.after free)

theorem recording_heritage {declaration : Declaration}
    (safe : ∀ type ∈ declaration.typeExprs, type.LinkSafe) :
    Recording allowed (heritage declaration) (BlocksLinkTo allowed) := by
  cases declaration with
  | classType typeParameters base interfaces members isAbstract =>
      have extended : Recording allowed (heritageList "**Extends**: " base.toList)
          (BlocksLinkTo allowed) :=
        recording_heritageList (by decide) fun type given =>
          safe type (List.mem_append_left _ given)
      have implemented : Recording allowed (heritageList "**Implements**: " interfaces)
          (BlocksLinkTo allowed) :=
        recording_heritageList (by decide) fun type given =>
          safe type (List.mem_append_right _ given)
      exact extended.bind fun _ => implemented.map fun _ second first => first.append second
  | interfaceType typeParameters bases members =>
      exact recording_heritageList (by decide) safe
  | _ => exact .of_value blocksLinkTo_nil

theorem bracketFree_inlineCode (free : BracketFree text.toList) :
    BracketFree (Markdown.inlineCode text).toList := by
  simp only [Markdown.inlineCode]
  split
  · exact .concat (.concat (by decide) free) (by decide)
  · exact .concat (.concat (by decide) free) (by decide)

theorem recording_typeParameterItem {parameter : TypeParameter} (safe : parameter.LinkSafe) :
    Recording allowed (typeParameterItem parameter) (LinksTo allowed) := by
  have constrained : Recording allowed (linkedOptional " extends " parameter.constraint)
      (Attaches allowed) := recording_linkedOptional (by decide) safe.constraint
  have defaulted : Recording allowed (linkedOptional " = " parameter.default)
      (Attaches allowed) := recording_linkedOptional (by decide) safe.default
  have named : LinksTo allowed (Markdown.inlineCode parameter.name) :=
    .of_bracketFree (bracketFree_inlineCode safe.name.bracketFree)
  exact constrained.bind fun _ => defaulted.map fun _ second first =>
    (named.append first).append second

/-- A description behind a dash, where there is one. -/
theorem attaches_description {given : Option String} :
    (∀ text ∈ given, BracketFree text.toList) →
      Attaches allowed (match given with
        | none => ""
        | some text => " - " ++ text) := by
  intro free
  cases given with
  | none => exact .nil
  | some text =>
      exact (LinksTo.of_bracketFree (free text rfl)).attaches_after (by decide)

theorem recording_parameterItem {parameter : Parameter}
    (said : doc.Says fun text => BracketFree text.toList) (safe : parameter.LinkSafe) :
    Recording allowed (parameterItem doc parameter) (LinksTo allowed) := by
  have mark : Attaches allowed (if parameter.isOptional then " (optional)" else "") := by
    split
    · exact .of_bracketFree (by decide)
    · exact .nil
  have description : Attaches allowed (match doc.param? parameter.name with
      | none => ""
      | some text => " - " ++ text) := by
    apply attaches_description
    intro text found
    obtain ⟨looked, _⟩ := Option.filter_eq_some_iff.mp found
    obtain ⟨before, after, split, _⟩ := List.lookup_eq_some_iff.mp looked
    exact said.params (parameter.name, text) (by simp [split])
  have front : BracketFree (Markdown.inlineCode parameter.name ++ ": ").toList :=
    (bracketFree_inlineCode safe.name.bracketFree).concat (by decide)
  have types := safe.type
  simp only [parameterItem]
  cases type : parameter.type with
  | none =>
      have unknown : LinksTo allowed TypeExpr.unknownText := .of_bracketFree (by decide)
      exact .of_value (((unknown.after front).append mark).append description)
  | some given =>
      rw [type] at types
      exact (TypeExpr.recording_linked given (types given List.mem_cons_self)).map
        fun text links => ((links.after front).append mark).append description

theorem recording_returns {type : Option TypeExpr}
    (said : doc.Says fun text => BracketFree text.toList)
    (safe : ∀ given ∈ type.toList, given.LinkSafe) :
    Recording allowed (returns doc type) (BlocksLinkTo allowed) := by
  cases type with
  | none => exact .of_value blocksLinkTo_nil
  | some given =>
      have description : Attaches allowed (match doc.returns.filter (!·.isEmpty) with
          | none => ""
          | some text => " - " ++ text) := by
        apply attaches_description
        intro text found
        exact said.returns text (Option.filter_eq_some_iff.mp found).1
      exact (TypeExpr.recording_linked given (safe given List.mem_cons_self)).map
        fun text links => blocksLinkTo_paragraph
          ((links.after (by decide)).append description)

theorem recording_value {type : Option TypeExpr}
    (safe : ∀ given ∈ type.toList, given.LinkSafe) :
    Recording allowed (value type) (BlocksLinkTo allowed) := by
  cases type with
  | none => exact .of_value blocksLinkTo_nil
  | some given =>
      exact (TypeExpr.recording_linked given (safe given List.mem_cons_self)).map
        fun text links => blocksLinkTo_paragraph (links.after (by decide))

theorem blocksLinkTo_examples {texts : List String}
    (free : ∀ text ∈ texts, BracketFree text.toList) :
    BlocksLinkTo allowed (examples texts) := by
  simp only [examples]
  split
  · exact blocksLinkTo_nil
  · refine List.forall_mem_cons.mpr
      ⟨Markdown.linksTo_text (.of_bracketFree (by decide)), ?_⟩
    refine List.forall_mem_cons.mpr ⟨Markdown.linksTo_emptyLine, ?_⟩
    intro block member
    obtain ⟨text, shown, rfl⟩ := List.mem_map.mp member
    exact Markdown.linksTo_code .nil (LinksTo.of_bracketFree (free text shown)).lines

/-- The prose after a signature records what it links to. -/
theorem recording_details {catalog : Catalog} {entity : Entity} (safe : catalog.LinkSafe)
    (entitySafe : entity.LinkSafe) :
    Recording allowed (details catalog entity entity.docComment) (BlocksLinkTo allowed) := by
  have said := entitySafe.docComment
  have viewSafe := safe.view entity.id
  have seeAlso : ∀ text ∈ entity.docComment.seeAlso, LinksTo allowed text := fun text listed =>
    .of_bracketFree (said.seeAlso text listed)
  simp only [details]
  split
  · exact .of_value blocksLinkTo_nil
  · refine (recording_heritage entitySafe.types).andThen fun heritage => ?_
    refine (Recording.mapM fun parameter listed =>
      recording_typeParameterItem (viewSafe.typeParameters parameter listed)).andThen
      fun typeParameters => ?_
    refine (Recording.mapM fun parameter listed =>
      recording_parameterItem said (viewSafe.parameters parameter listed)).andThen
      fun parameters => ?_
    refine (recording_returns said viewSafe.returnType).andThen fun returns => ?_
    refine (recording_value fun type valued =>
      entitySafe.types type (Declaration.mem_typeExprs_of_valueType valued)).andReturn
      fun value => ?_
    intro valueLinks returnsLinks parametersLink typeParametersLink heritageLinks
    exact (((((heritageLinks.append
      (blocksLinkTo_titledList (by decide) typeParametersLink)).append
      (blocksLinkTo_titledList (by decide) parametersLink)).append returnsLinks).append
      valueLinks).append (blocksLinkTo_examples said.examples)).append
      (blocksLinkTo_titledList (by decide) seeAlso)

end Prose

end ApiManual
