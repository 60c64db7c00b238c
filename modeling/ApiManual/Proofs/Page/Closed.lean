import ApiManual.Proofs.Page.Prose
import ApiManual.Proofs.Page.Signature
import ApiManual.Proofs.Site.Growth

/-!
# Closed pages

A page is closed when every link in its content leads to an entity that the page
records as used.  The page of an entity is closed: what its own prose uses is
recorded while it is made, and what the parts of members use is added to it.
-/

namespace ApiManual

open Markdown (Block ListItem LinksTo)
open Prose (BlocksLinkTo)
open Stripping (BracketFree)

/-! ## Headings -/

namespace Heading

theorem mem_listings {heading : Heading} {headings : List Heading} :
    heading ∈ listings headings ↔ ∃ top ∈ headings, heading ∈ top.listing := by
  induction headings with
  | nil => simp [listings]
  | cons first rest ih => simp [listings, ih]

/-- A heading that can be linked to under its title. -/
structure LinkSafe (heading : Heading) : Prop where
  title : LinkName heading.title
  id : heading.id.LinkSafe

theorem linkSafe_singleton {title : String} {id : EntityId} {members : List Heading}
    (named : LinkName title) (safe : id.LinkSafe)
    (below : ∀ heading ∈ listings members, heading.LinkSafe) :
    ∀ heading ∈ listings [⟨title, id, members⟩], heading.LinkSafe := by
  rw [listings, listings, List.append_nil, listing, List.forall_mem_cons]
  exact ⟨⟨named, safe⟩, below⟩

end Heading

namespace Page

/-- Every link in the content of a page leads to an entity that the page records.
What it records and what it has headings for can be linked to. -/
structure Closed (page : Page) : Prop where
  content : ∀ line ∈ page.content, LinksTo (· ∈ page.used.ids) line
  used : ∀ id ∈ page.used.ids, id.LinkSafe
  headings : ∀ heading ∈ Heading.listings page.headings, heading.LinkSafe

/-- The same for what a member contributes to the page of its container. -/
structure Part.Closed (part : Part) : Prop where
  content : ∀ line ∈ part.content, LinksTo (· ∈ part.references) line
  entries : ∀ text ∈ ListItem.textsOf part.entries, LinksTo (· ∈ part.references) text
  references : ∀ id ∈ part.references, id.LinkSafe
  headings : ∀ heading ∈ Heading.listings part.headings, heading.LinkSafe

variable {catalog : Catalog} {entity : Entity} {language title : String} {level : Nat}

/-! ## Single entities -/

/-- The details of an entity with everything that is recorded on its page. -/
def recorded (catalog : Catalog) (entity : Entity) : List Block × References :=
  (Prose.details catalog entity entity.docComment).run (.singleton entity.id)

theorem recorded_safe (safe : catalog.LinkSafe) (entitySafe : entity.LinkSafe) :
    ∀ id ∈ (recorded catalog entity).2.ids, id.LinkSafe := by
  have details : Recording (fun _ => True)
      (Prose.details catalog entity entity.docComment) (BlocksLinkTo fun _ => True) :=
    Prose.recording_details safe entitySafe
  apply details.safe
  intro id member
  rcases References.mem_ids_insert.mp member with none | rfl
  · cases none
  · exact entitySafe.id

/-- The blocks of an entity link to what is recorded on its page. -/
theorem blocksLinkTo_body {allowed : EntityId → Prop} (safe : catalog.LinkSafe)
    (languageFree : BracketFree language.toList) (entitySafe : entity.LinkSafe)
    (titleFree : BracketFree title.toList)
    (within : ∀ id ∈ (recorded catalog entity).2.ids, allowed id) :
    BlocksLinkTo allowed (body catalog language entity title level).1 := by
  have introduction : BlocksLinkTo allowed (Prose.introduction entity.docComment) :=
    Prose.blocksLinkTo_introduction entitySafe.docComment
  have code : BlocksLinkTo allowed
      (if (Signature.lines catalog entity title).isEmpty then []
        else [.code language (Signature.lines catalog entity title)]) := by
    split
    · exact Prose.blocksLinkTo_nil
    · exact List.forall_mem_singleton.mpr (Markdown.linksTo_code languageFree
        (Signature.linksTo_lines safe entitySafe titleFree))
  have details : BlocksLinkTo allowed (recorded catalog entity).1 :=
    (Prose.recording_details safe entitySafe).value _ within
  have whole := (introduction.append code).append details
  exact List.forall_mem_cons.mpr ⟨Markdown.linksTo_header titleFree,
    List.forall_mem_cons.mpr ⟨Markdown.linksTo_emptyLine, whole⟩⟩

/-- An entity shown without its members. -/
theorem closed_item (safe : catalog.LinkSafe) (languageFree : BracketFree language.toList)
    (entitySafe : entity.LinkSafe) (named : LinkName title) :
    (item catalog language entity title level).Closed := by
  exact {
    content := Markdown.linksTo_toLines
      (blocksLinkTo_body safe languageFree entitySafe named.bracketFree fun _ held => held)
    used := recorded_safe safe entitySafe
    headings := Heading.linkSafe_singleton named entitySafe.id (List.forall_mem_nil _) }

theorem linksTo_entry {member : Entity} (safe : member.LinkSafe) :
    ∀ text ∈ ListItem.textsOf [entry member], LinksTo (· ∈ [member.id]) text := by
  have link : LinksTo (· ∈ [member.id]) (Markdown.link member.name member.id) :=
    Markdown.linksTo_link safe.name.bracketFree safe.name.oneLine safe.id List.mem_cons_self
  have described := link.append ((LinksTo.of_bracketFree safe.docComment.summary).attaches_after
    (by decide : Markdown.Separates " - "))
  rw [← String.append_assoc] at described
  simp only [ListItem.textsOf, entry, ListItem.texts, List.append_nil,
    List.forall_mem_singleton]
  split
  · exact link
  · exact described

/-! ## Containers -/

theorem closed_part {member : Entity} (safe : catalog.LinkSafe)
    (languageFree : BracketFree language.toList) (memberSafe : member.LinkSafe) :
    (part catalog language member).Closed := by
  simp only [part]
  split
  · exact {
      content := List.forall_mem_nil _
      entries := linksTo_entry memberSafe
      references := List.forall_mem_singleton.mpr memberSafe.id
      headings := List.forall_mem_nil _ }
  · have shown : (item catalog language member member.name memberLevel).Closed :=
      closed_item safe languageFree memberSafe memberSafe.name
    exact {
      content := shown.content
      entries := List.forall_mem_nil _
      references := shown.used
      headings := shown.headings }

theorem mem_entities_of_mem_listed {group : MemberGroup} {member : Entity}
    (listedIn : member ∈ listed catalog entity group) :
    member ∈ catalog.entities entity.members :=
  (List.mem_filter.mp listedIn).1

theorem closed_parts {group : MemberGroup} (safe : catalog.LinkSafe)
    (languageFree : BracketFree language.toList) :
    ∀ part ∈ parts catalog language entity group, part.Closed := by
  intro part member
  obtain ⟨inside, listedIn, rfl⟩ := List.mem_map.mp member
  exact closed_part safe languageFree
    (safe.entities inside (mem_entities_of_mem_listed listedIn))

theorem bracketFree_label {kind : Kind} :
    ∀ group ∈ kind.memberGroups, BracketFree group.label.toList := by
  cases kind <;> decide

/-- The section of a group links to what its parts use. -/
theorem blocksLinkTo_groupBlocks {group : MemberGroup} {parts : List Part}
    {allowed : EntityId → Prop} (labelFree : BracketFree group.label.toList)
    (closed : ∀ part ∈ parts, part.Closed)
    (within : ∀ part ∈ parts, ∀ id ∈ part.references, allowed id) :
    BlocksLinkTo allowed (groupBlocks group parts) := by
  have content : (Block.lines (parts.flatMap (·.content))).LinksTo allowed := by
    intro line member
    obtain ⟨part, held, inside⟩ := List.mem_flatMap.mp member
    exact ((closed part held).content line inside).mono (within part held)
  have entries : (Block.list (parts.flatMap (·.entries))).LinksTo allowed := by
    apply Markdown.linksTo_list
    intro text member
    obtain ⟨item, listedIn, inside⟩ := Markdown.mem_textsOf.mp member
    obtain ⟨part, held, given⟩ := List.mem_flatMap.mp listedIn
    exact ((closed part held).entries text
      (Markdown.mem_textsOf.mpr ⟨item, given, inside⟩)).mono (within part held)
  simp only [groupBlocks]
  split
  · exact Prose.blocksLinkTo_nil
  · refine List.forall_mem_cons.mpr ⟨Markdown.linksTo_header labelFree, ?_⟩
    refine List.forall_mem_cons.mpr ⟨Markdown.linksTo_emptyLine, ?_⟩
    refine List.forall_mem_cons.mpr ⟨content, ?_⟩
    split
    · exact Prose.blocksLinkTo_nil
    · refine List.forall_mem_cons.mpr ⟨entries, ?_⟩
      exact List.forall_mem_singleton.mpr Markdown.linksTo_emptyLine

theorem closed_sections {groups : List MemberGroup} (safe : catalog.LinkSafe)
    (languageFree : BracketFree language.toList) :
    ∀ part ∈ (groups.map fun group =>
        (group, parts catalog language entity group)).flatMap (·.2), part.Closed := by
  intro part member
  obtain ⟨_, inside, held⟩ := List.mem_flatMap.mp member
  obtain ⟨_, _, rfl⟩ := List.mem_map.mp inside
  exact closed_parts safe languageFree part held

/-- The sections of a container link to what their parts use. -/
theorem blocksLinkTo_sections {sections : List (MemberGroup × List Part)}
    {allowed : EntityId → Prop}
    (labels : ∀ group ∈ sections, BracketFree group.1.label.toList)
    (closed : ∀ part ∈ sections.flatMap (·.2), part.Closed)
    (within : ∀ id ∈ (sections.flatMap (·.2)).flatMap (·.references), allowed id) :
    BlocksLinkTo allowed
      (sections.flatMap fun (group, parts) => groupBlocks group parts) := by
  intro block member
  obtain ⟨group, inside, held⟩ := List.mem_flatMap.mp member
  have shown : ∀ part ∈ group.2, part ∈ sections.flatMap (·.2) := fun part listedIn =>
    List.mem_flatMap.mpr ⟨group, inside, listedIn⟩
  refine blocksLinkTo_groupBlocks (labels group inside)
    (fun part listedIn => closed part (shown part listedIn)) ?_ block held
  intro part listedIn id used
  exact within id (List.mem_flatMap.mpr ⟨part, shown part listedIn, used⟩)

theorem linkSafe_references {shown : List Part} (closed : ∀ part ∈ shown, part.Closed) :
    ∀ id ∈ shown.flatMap (·.references), id.LinkSafe := by
  intro id member
  obtain ⟨part, held, used⟩ := List.mem_flatMap.mp member
  exact (closed part held).references id used

theorem linkSafe_headings {shown : List Part} (closed : ∀ part ∈ shown, part.Closed) :
    ∀ heading ∈ Heading.listings (shown.flatMap (·.headings)), heading.LinkSafe := by
  intro heading member
  obtain ⟨top, inside, below⟩ := Heading.mem_listings.mp member
  obtain ⟨part, held, given⟩ := List.mem_flatMap.mp inside
  exact (closed part held).headings heading (Heading.mem_listings.mpr ⟨top, given, below⟩)

/-- What all parts of a container use is recorded on its page. -/
theorem closed_container {groups : List MemberGroup} (safe : catalog.LinkSafe)
    (languageFree : BracketFree language.toList) (entitySafe : entity.LinkSafe)
    (labels : ∀ group ∈ groups, BracketFree group.label.toList) (members : List Page) :
    let sections := groups.map fun group => (group, parts catalog language entity group)
    let shown := sections.flatMap (·.2)
    let whole := body catalog language entity entity.name titleLevel
    Page.Closed {
      id := entity.id
      content := Markdown.toLines
        (whole.1 ++ sections.flatMap fun (group, parts) => groupBlocks group parts)
      headings := [⟨entity.name, entity.id, shown.flatMap (·.headings)⟩]
      used := whole.2.insertAll (shown.flatMap (·.references))
      members } := by
  intro sections shown whole
  have closed : ∀ part ∈ shown, part.Closed := closed_sections safe languageFree
  refine { content := ?_, used := ?_, headings := ?_ }
  · have own : BlocksLinkTo (· ∈ (whole.2.insertAll (shown.flatMap (·.references))).ids)
        whole.1 :=
      blocksLinkTo_body safe languageFree entitySafe entitySafe.name.bracketFree
        fun id held => References.mem_ids_insertAll.mpr (.inl held)
    have grouped : ∀ group ∈ sections, BracketFree group.1.label.toList :=
      List.forall_mem_map.mpr labels
    exact Markdown.linksTo_toLines (own.append (blocksLinkTo_sections grouped closed
      fun id held => References.mem_ids_insertAll.mpr (.inr held)))
  · intro id member
    rcases References.mem_ids_insertAll.mp member with own | used
    · exact recorded_safe safe entitySafe id own
    · exact linkSafe_references closed id used
  · exact Heading.linkSafe_singleton entitySafe.name entitySafe.id (linkSafe_headings closed)

/-- The page of an entity is closed. -/
theorem closed_render (safe : catalog.LinkSafe) (languageFree : BracketFree language.toList)
    (entitySafe : entity.LinkSafe) :
    (render catalog language entity (.of entity)).Closed := by
  rw [render]
  split
  · have shown : (item catalog language entity entity.name titleLevel).Closed :=
      closed_item safe languageFree entitySafe entitySafe.name
    exact { content := shown.content, used := shown.used, headings := shown.headings }
  · next groups grouped =>
      apply closed_container safe languageFree entitySafe
      intro group member
      apply bracketFree_label group
      rw [Kind.memberGroups, grouped]
      exact member

end Page

end ApiManual
