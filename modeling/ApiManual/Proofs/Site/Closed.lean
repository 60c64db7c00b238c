import ApiManual.Proofs.Page.Closed
import ApiManual.Proofs.Site.Brackets
import ApiManual.Proofs.Site.Resolution
import ApiManual.Site.Output

/-!
# Closed sites

A site is closed when its pages are and every heading on them has an anchor.  Placing
the page of an entity keeps a site closed, also where the page takes the place of
another one: the anchors of the page that is lost stay.

What is written for a page of a closed site links to nothing but what the page refers
to and what is documented.  Links of the table of contents lead to headings, links in
the content that lead nowhere are stripped one entity after the other, and the
definitions at the end hold no link.
-/

namespace ApiManual

open Markdown (LinksTo ListItem)
open Stripping (BracketFree)

/-! ## Tables of contents -/

namespace Heading

theorem mem_listing_self (heading : Heading) : heading ∈ heading.listing := by
  cases heading
  exact List.mem_cons_self

theorem mem_listings_of_mem {heading : Heading} {headings : List Heading}
    (member : heading ∈ headings) : heading ∈ listings headings :=
  mem_listings.mpr ⟨heading, member, mem_listing_self heading⟩

theorem mem_listings_of_mem_members {heading top : Heading} {headings : List Heading}
    (member : top ∈ headings) (below : heading ∈ top.members) :
    heading ∈ listings headings := by
  refine mem_listings.mpr ⟨top, member, ?_⟩
  cases top
  exact List.mem_cons_of_mem _ (mem_listings_of_mem below)

theorem LinkSafe.linksTo {allowed : EntityId → Prop} {heading : Heading}
    (safe : heading.LinkSafe) (known : allowed heading.id) :
    LinksTo allowed (Contents.link heading) :=
  Markdown.linksTo_link safe.title.bracketFree safe.title.oneLine safe.id known

end Heading

namespace Contents

variable {catalog : Catalog} {page : Page} {entry : Entry}

/-- The headings that an entry links to. -/
def Entry.linked (entry : Entry) : List Heading :=
  entry.heading :: entry.groups.flatMap (·.2)

theorem mem_linkedIds {id : EntityId} :
    id ∈ linkedIds catalog page ↔
      ∃ entry ∈ entries catalog page, ∃ heading ∈ entry.linked, heading.id = id := by
  have linkedEq : linkedIds catalog page =
      (entries catalog page).flatMap fun entry => entry.linked.map (·.id) := by
    simp only [linkedIds, Entry.linked, List.map_cons, List.map_flatMap]
  simp only [linkedEq, List.mem_flatMap, List.mem_map]

/-- An entry is made of headings of the page, under labels of groups of members. -/
theorem of_mem_entries (member : entry ∈ entries catalog page) :
    (∀ heading ∈ entry.linked, heading ∈ Heading.listings page.headings) ∧
      ∀ shown ∈ entry.groups, BracketFree shown.1.label.toList := by
  simp only [entries, List.mem_filter, List.mem_map] at member
  obtain ⟨⟨top, placed, rfl⟩, _⟩ := member
  constructor
  · intro heading linked
    rcases List.mem_cons.mp linked with rfl | below
    · exact Heading.mem_listings_of_mem placed
    · obtain ⟨shown, inGroups, inside⟩ := List.mem_flatMap.mp below
      obtain ⟨group, _, rfl⟩ := List.mem_map.mp (List.mem_filter.mp inGroups).1
      exact Heading.mem_listings_of_mem_members placed (List.mem_filter.mp inside).1
  · intro shown inGroups
    obtain ⟨group, known, rfl⟩ := List.mem_map.mp (List.mem_filter.mp inGroups).1
    cases kindEq : catalog.kind? page.id with
    | none =>
        rw [kindEq] at known
        cases known
    | some kind =>
        rw [kindEq] at known
        exact Page.bracketFree_label group known

/-- The texts of an item are the links of its entry and the labels of its groups. -/
theorem linksTo_item {allowed : EntityId → Prop}
    (links : ∀ heading ∈ entry.linked, LinksTo allowed (link heading))
    (labels : ∀ shown ∈ entry.groups, BracketFree shown.1.label.toList) :
    ∀ text ∈ (item entry).texts, LinksTo allowed text := by
  rw [item, ListItem.texts, List.forall_mem_cons]
  refine ⟨links _ List.mem_cons_self, ?_⟩
  intro text member
  obtain ⟨group, held, inGroup⟩ := Markdown.mem_textsOf.mp member
  obtain ⟨shown, inGroups, rfl⟩ := List.mem_map.mp held
  rcases List.mem_cons.mp inGroup with rfl | below
  · exact .of_bracketFree (labels shown inGroups)
  · obtain ⟨nested, inHeadings, inNested⟩ := Markdown.mem_textsOf.mp below
    obtain ⟨heading, listedIn, rfl⟩ := List.mem_map.mp inHeadings
    rw [ListItem.texts, ListItem.textsOf, List.mem_singleton] at inNested
    subst inNested
    exact links heading (List.mem_cons_of_mem _
      (List.mem_flatMap.mpr ⟨shown, inGroups, listedIn⟩))

/-- A table of contents links to what it lists as linked. -/
theorem linksTo_lines (safe : ∀ heading ∈ Heading.listings page.headings, heading.LinkSafe) :
    ∀ line ∈ lines catalog page, LinksTo (· ∈ linkedIds catalog page) line := by
  rw [lines]
  split
  · exact List.forall_mem_nil _
  · apply Markdown.linksTo_toLines
    have items : (Markdown.Block.list ((entries catalog page).map item)).LinksTo
        (· ∈ linkedIds catalog page) := by
      apply Markdown.linksTo_list
      intro text member
      obtain ⟨shown, held, inside⟩ := Markdown.mem_textsOf.mp member
      obtain ⟨entry, inEntries, rfl⟩ := List.mem_map.mp held
      obtain ⟨placed, labels⟩ := of_mem_entries inEntries
      refine linksTo_item ?_ labels text inside
      intro heading linked
      exact (safe heading (placed heading linked)).linksTo
        (mem_linkedIds.mpr ⟨entry, inEntries, heading, linked, rfl⟩)
    rw [List.forall_mem_cons, List.forall_mem_cons, List.forall_mem_cons,
      List.forall_mem_singleton]
    exact ⟨Markdown.linksTo_header (by decide), Markdown.linksTo_emptyLine, items,
      Markdown.linksTo_emptyLine⟩

end Contents

namespace Site

variable {catalog : Catalog} {options : Options} {site : Site} {showContents : Bool}
  {path : String} {page : Page}

/-! ## Anchors of headings -/

/-- After a commit there is an anchor where there was one before and for every heading
of the page. -/
theorem isSome_anchor?_commit {id : EntityId} :
    ((site.commit path page).anchor? id).isSome ↔
      (site.anchor? id).isSome ∨ ∃ heading ∈ Heading.listings page.headings,
        id = heading.id := by
  rw [anchor?_commit, Option.isSome_or, Bool.or_eq_true, Option.isSome_map, List.find?_isSome]
  simp only [decide_eq_true_eq, @eq_comm _ id]

/-- An entity that has an anchor is documented there. -/
theorem isSome_resolve?_of_anchor? {id : EntityId} (anchored : (site.anchor? id).isSome) :
    (site.resolve? catalog id).isSome := by
  obtain ⟨target, found⟩ := Option.isSome_iff_exists.mp anchored
  rw [resolve?_eq, turn, found]
  rfl

/-! ## The invariant -/

/-- The pages of a site are closed, their headings have anchors, and no anchor holds
a bracket. -/
structure Closed (site : Site) : Prop where
  pages : ∀ entry ∈ site.documents, entry.2.Closed
  indexed : ∀ entry ∈ site.documents, ∀ heading ∈ Heading.listings entry.2.headings,
    (site.anchor? heading.id).isSome
  targets : ∀ entry ∈ site.anchors, BracketFree entry.2.toList

theorem closed_empty : Site.empty.Closed where
  pages := List.forall_mem_nil _
  indexed := List.forall_mem_nil _
  targets := List.forall_mem_nil _

theorem Closed.commit (closed : site.Closed) (free : BracketFree path.toList)
    (pageClosed : page.Closed) : (site.commit path page).Closed := by
  refine { pages := ?_, indexed := ?_, targets := ?_ }
  · intro entry member
    rcases mem_documents_commit member with rfl | old
    · exact ⟨pageClosed.content, pageClosed.used, pageClosed.headings⟩
    · exact closed.pages entry old
  · intro entry member heading listed
    rw [isSome_anchor?_commit]
    rcases mem_documents_commit member with rfl | old
    · exact .inr ⟨heading, listed, rfl⟩
    · exact .inl (closed.indexed entry old heading listed)
  · intro entry member
    rcases mem_anchors_commit member with ⟨heading, _, rfl⟩ | old
    · exact bracketFree_target free
    · exact closed.targets entry old

/-- The page of an entity of a catalog, at a path without brackets. -/
def Rendered (catalog : Catalog) (language path : String) (page : Page) : Prop :=
  BracketFree path.toList ∧ ∃ entity ∈ catalog.registry.entities,
    page = Page.render catalog language entity (.of entity)

theorem Rendered.member {language extension : String} (safe : catalog.LinkSafe)
    (extensionFree : BracketFree extension.toList)
    (rendered : Rendered catalog language path page) :
    ∀ member ∈ page.members, ∀ entity, catalog.entity? member.id = some entity →
      Rendered catalog language (DocumentPath.member path entity.name extension) member := by
  obtain ⟨pathFree, container, _, rfl⟩ := rendered
  intro member inside entity found
  rw [Page.members_render] at inside
  obtain ⟨nested, held, rfl⟩ := List.mem_map.mp inside
  obtain ⟨group, _, inGroup⟩ := List.mem_flatMap.mp held
  have listed := Page.mem_entities_of_mem_listed (List.mem_filter.mp inGroup).1
  obtain ⟨id, _, nestedFound⟩ := List.mem_filterMap.mp listed
  have named : BracketFree entity.name.toList := (safe.entity? found).name.bracketFree
  exact ⟨DocumentPath.bracketFree_member pathFree named extensionFree, nested,
    (Registry.get?_eq_some_iff.mp nestedFound).1, rfl⟩

theorem closed_invariant {language extension : String} (safe : catalog.LinkSafe)
    (languageFree : BracketFree language.toList)
    (extensionFree : BracketFree extension.toList) :
    Invariant catalog extension (Rendered catalog language) Closed where
  empty := closed_empty
  descend := Rendered.member safe extensionFree
  commit := by
    rintro site path _ closed ⟨pathFree, entity, registered, rfl⟩
    exact closed.commit pathFree (Page.closed_render safe languageFree (safe entity registered))

/-- The site of a manual is closed. -/
theorem closed_of_site (safe : catalog.LinkSafe)
    (languageFree : BracketFree options.language.toList)
    (extensionFree : BracketFree options.extension.toList)
    (built : Manual.site catalog options = .ok site) : site.Closed := by
  refine (closed_invariant safe languageFree extensionFree).of_site ?_ built
  intro id _ entity path found placed
  have fileFree := (safe.entity? found).fileName
  exact ⟨DocumentPath.bracketFree_entry fileFree extensionFree placed, entity,
    (Registry.get?_eq_some_iff.mp found).1, rfl⟩

/-! ## Written lines -/

/-- Stripping entities one after the other takes the links to each of them out of the
lines and leaves no other. -/
theorem linksTo_stripped {allowed : EntityId → Prop} {ids : List EntityId}
    {lines : List String} (safe : ∀ id ∈ ids, id.LinkSafe)
    (each : ∀ line ∈ lines, LinksTo allowed line) :
    ∀ line ∈ ids.foldl (fun lines id => Stripping.lines id lines) lines,
      LinksTo (fun id => allowed id ∧ id ∉ ids) line := by
  induction ids generalizing lines allowed with
  | nil =>
      intro line member
      exact (each line member).mono fun id held => ⟨held, List.not_mem_nil⟩
  | cons first rest ih =>
      rw [List.forall_mem_cons] at safe
      have once : ∀ line ∈ Stripping.lines first lines,
          LinksTo (fun id => allowed id ∧ id ≠ first) line := by
        intro line member
        obtain ⟨before, held, rfl⟩ := List.mem_map.mp member
        exact (each before held).strip safe.1
      intro line member
      refine (ih safe.2 once line member).mono ?_
      rintro id ⟨⟨held, differs⟩, fresh⟩
      refine ⟨held, ?_⟩
      rw [List.mem_cons, not_or]
      exact ⟨differs, fresh⟩

theorem linkSafe_references (closed : page.Closed) :
    ∀ id ∈ (references catalog showContents page).ids, id.LinkSafe := by
  intro id member
  rw [references] at member
  split at member
  · rcases References.mem_ids_insertAll.mp member with used | linked
    · exact closed.used id used
    · obtain ⟨entry, inEntries, heading, inEntry, rfl⟩ := Contents.mem_linkedIds.mp linked
      have placed := (Contents.of_mem_entries inEntries).1 heading inEntry
      exact (closed.headings heading placed).id
  · exact closed.used id member

theorem mem_references_of_mem_used {id : EntityId} (used : id ∈ page.used.ids) :
    id ∈ (references catalog showContents page).ids := by
  rw [references]
  split
  · exact References.mem_ids_insertAll.mpr (.inl used)
  · exact used

/-- Entities that a page refers to and that are documented. -/
def Leads (catalog : Catalog) (showContents : Bool) (site : Site) (page : Page)
    (id : EntityId) : Prop :=
  id ∈ (references catalog showContents page).ids ∧ (site.resolve? catalog id).isSome

theorem linksTo_contents (pageClosed : page.Closed)
    (indexed : ∀ heading ∈ Heading.listings page.headings, (site.anchor? heading.id).isSome) :
    ∀ line ∈ Contents.lines catalog page, LinksTo (site.Leads catalog true page) line := by
  intro line member
  refine (Contents.linksTo_lines pageClosed.headings line member).mono ?_
  intro id linked
  refine ⟨References.mem_ids_insertAll.mpr (.inr linked), ?_⟩
  obtain ⟨entry, inEntries, heading, inEntry, rfl⟩ := Contents.mem_linkedIds.mp linked
  have placed := (Contents.of_mem_entries inEntries).1 heading inEntry
  exact isSome_resolve?_of_anchor? (indexed heading placed)

theorem linksTo_strippedContent (pageClosed : page.Closed) :
    ∀ line ∈ site.strippedContent catalog showContents page,
      LinksTo (site.Leads catalog showContents page) line := by
  have safe : ∀ id ∈ site.undocumented catalog showContents page, id.LinkSafe :=
    fun id member => linkSafe_references pageClosed id (List.mem_filter.mp member).1
  intro line member
  refine (linksTo_stripped safe pageClosed.content line member).mono ?_
  rintro id ⟨used, documented⟩
  have referred : id ∈ (references catalog showContents page).ids :=
    mem_references_of_mem_used used
  refine ⟨referred, ?_⟩
  rw [Option.isSome_iff_ne_none]
  intro missing
  exact documented (List.mem_filter.mpr ⟨referred, Option.isNone_iff_eq_none.mpr missing⟩)

theorem linksTo_definitions {allowed : EntityId → Prop} (closed : site.Closed)
    (pageClosed : page.Closed) :
    ∀ line ∈ site.definitions catalog showContents path page, LinksTo allowed line := by
  intro line member
  obtain ⟨id, referred, defined⟩ := List.mem_filterMap.mp member
  obtain ⟨link, linked, rfl⟩ := Option.map_eq_some_iff.mp defined
  obtain ⟨target, resolved, rfl⟩ := Option.map_eq_some_iff.mp linked
  obtain ⟨anchored, held⟩ := mem_anchors_of_resolve? resolved
  have free : BracketFree target.toList := closed.targets _ held
  exact Markdown.linksTo_linkDefinition (linkSafe_references pageClosed id referred)
    (DocumentPath.bracketFree_relative free)

/-- Every line of a document links to documented entities that its page refers to. -/
theorem Closed.linksTo_content (closed : site.Closed) (placed : (path, page) ∈ site.documents) :
    ∀ line ∈ (site.documentAt catalog showContents path page).1.content,
      LinksTo (site.Leads catalog showContents page) line := by
  have pageClosed : page.Closed := closed.pages _ placed
  intro line member
  rcases List.mem_append.mp member with front | defined
  · rcases List.mem_append.mp front with inContents | inContent
    · cases showContents with
      | false => cases inContents
      | true => exact linksTo_contents pageClosed (closed.indexed _ placed) line inContents
    · exact linksTo_strippedContent pageClosed line inContent
  · exact linksTo_definitions closed pageClosed line defined

end Site

end ApiManual
