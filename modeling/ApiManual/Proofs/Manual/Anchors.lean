import ApiManual.Proofs.Manual.Documented
import Mathlib.Data.List.Nodup

/-!
# Anchors and header lines

An anchor is a document path with the slug of a title.  It is made when a page is indexed, apart
from the lines of that page, and it outlives the page: another page may take the path.  As long
as every path is used once, the page stays, and then the anchor of an entity leads to a header
line that bears the name of the entity.

A page shows headings on two levels.  The page of an entity has a header line for each of them:
that of the entity itself at the top, and one for every member that has no page of its own.
-/

namespace ApiManual

namespace Page

/-- A page shows a heading: as its own title, or as that of a member below it. -/
inductive Shows (page : Page) (heading : Heading) : Prop where
  | title (top : heading ∈ page.headings) (line : "# " ++ heading.title ∈ page.content)
  | member {container : Heading} (top : container ∈ page.headings)
      (below : heading ∈ container.members) (line : "### " ++ heading.title ∈ page.content)

theorem headerLine_titleLevel (title : String) :
    Markdown.headerLine titleLevel title = "# " ++ title := by
  have marks : String.ofList (List.replicate (min (max titleLevel 1) 6) '#') ++ " " = "# " := by
    decide
  rw [Markdown.headerLine, marks]

theorem headerLine_memberLevel (title : String) :
    Markdown.headerLine memberLevel title = "### " ++ title := by
  have marks : String.ofList (List.replicate (min (max memberLevel 1) 6) '#') ++ " " =
      "### " := by decide
  rw [Markdown.headerLine, marks]

variable {catalog : Catalog} {language : String} {entity member : Entity} {group : MemberGroup}

/-- An entity that is shown begins with its header. -/
theorem headerLine_mem_body {title : String} {level : Nat} :
    Markdown.headerLine level title ∈
      Markdown.toLines (body catalog language entity title level).1 :=
  List.mem_flatMap.mpr ⟨.header level title, List.mem_cons_self, List.mem_singleton_self _⟩

/-- The page of an entity begins with its name. -/
theorem title_mem_render : "# " ++ entity.name ∈
    (render catalog language entity (.of entity)).content := by
  rw [render, ← headerLine_titleLevel]
  split
  · exact headerLine_mem_body
  · dsimp only
    rw [Markdown.toLines, List.flatMap_append]
    exact List.mem_append_left _ headerLine_mem_body

/-- The part of a member without a page of its own is the member itself. -/
theorem part_of_inline (inline : member.kind.hasOwnDocument = false) :
    ⟨member.name, member.id, []⟩ ∈ (part catalog language member).headings ∧
      "### " ++ member.name ∈ (part catalog language member).content := by
  rw [part, inline]
  refine ⟨List.mem_singleton_self _, ?_⟩
  rw [← headerLine_memberLevel]
  exact headerLine_mem_body

/-- A section holds the lines of its parts. -/
theorem mem_groupBlocks {parts : List Part} {shown : Part} (held : shown ∈ parts) {line : String}
    (inside : line ∈ shown.content) : line ∈ Markdown.toLines (groupBlocks group parts) := by
  have some : parts.isEmpty = false := List.isEmpty_eq_false_iff.mpr (List.ne_nil_of_mem held)
  rw [groupBlocks, some]
  refine List.mem_flatMap.mpr ⟨.lines (parts.flatMap (·.content)), ?_, ?_⟩
  · exact List.mem_cons_of_mem _ (List.mem_cons_of_mem _ List.mem_cons_self)
  · exact List.mem_flatMap.mpr ⟨shown, held, inside⟩

/-- The page of an entity shows the members that it lists and that have no pages of their own. -/
theorem shows_member (grouped : group ∈ entity.kind.memberGroups)
    (inGroup : member ∈ listed catalog entity group)
    (inline : member.kind.hasOwnDocument = false) :
    (render catalog language entity (.of entity)).Shows ⟨member.name, member.id, []⟩ := by
  rw [render]
  cases groupsEq : entity.kind.memberGroups? with
  | none =>
      rw [Kind.memberGroups, groupsEq] at grouped
      cases grouped
  | some groups =>
      rw [Kind.memberGroups, groupsEq] at grouped
      have inGroups : group ∈ groups := grouped
      obtain ⟨heading, line⟩ := @part_of_inline catalog language member inline
      have held : part catalog language member ∈ parts catalog language entity group :=
        List.mem_map_of_mem inGroup
      refine .member (List.mem_singleton_self _) ?_ ?_
      · exact List.mem_flatMap.mpr ⟨_, List.mem_flatMap.mpr
          ⟨_, List.mem_map_of_mem inGroups, held⟩, heading⟩
      · dsimp only
        rw [Markdown.toLines, List.flatMap_append, List.flatMap_assoc]
        refine List.mem_append_right _ (List.mem_flatMap.mpr ⟨_, List.mem_map_of_mem inGroups, ?_⟩)
        exact mem_groupBlocks held line

/-- Every heading of the page of a registered entity is shown on it, under the name of the
entity that it documents. -/
theorem shows_of_mem_listings (registered : catalog.entity? entity.id = some entity)
    {heading : Heading}
    (inside : heading ∈ Heading.listings (render catalog language entity (.of entity)).headings) :
    (render catalog language entity (.of entity)).Shows heading ∧
      ∃ documented, catalog.entity? heading.id = some documented ∧
        heading.title = documented.name := by
  obtain ⟨members, top, below⟩ := @headings_render catalog entity language
  rw [top, Heading.listings, Heading.listings, List.append_nil, Heading.listing,
    List.mem_cons] at inside
  rcases inside with rfl | later
  · exact ⟨.title (top ▸ List.mem_singleton_self _) title_mem_render, entity, registered, rfl⟩
  · obtain ⟨group, grouped, member, inGroup, inline, rfl⟩ := (below heading).mp later
    exact ⟨shows_member grouped inGroup inline, member, (mem_listed_iff.mp inGroup).2.1, rfl⟩

end Page

namespace Site

/-- With every path used once, a trace is settled without a loss. -/
theorem mem_settled_of_nodup {trace : List (String × Page)} {path : String} {page : Page}
    (once : (trace.map (·.1)).Nodup) (member : (path, page) ∈ trace) :
    (path, page) ∈ settled trace := by
  obtain ⟨last, found⟩ : ∃ last, trace.reverse.lookup path = some last :=
    Option.isSome_iff_exists.mp (List.lookup_isSome_iff.mpr
      ⟨_, List.mem_reverse.mpr member, beq_self_eq_true path⟩)
  have same : (path, last) = (path, page) :=
    List.inj_on_of_nodup_map once (Entries.mem_of_lookup_reverse found) member rfl
  refine List.mem_filterMap.mpr
    ⟨path, List.mem_eraseDups.mpr (List.mem_map_of_mem member), ?_⟩
  rw [found, ← same]
  rfl

/-- An anchor that a replay gives is that of a heading on one of its pages. -/
theorem exists_heading_of_anchor?_replay {trace : List (String × Page)} {id : EntityId}
    {anchor : String} (found : (Site.empty.replay trace).anchor? id = some anchor) :
    ∃ entry ∈ trace, ∃ heading ∈ Heading.listings entry.2.headings,
      heading.id = id ∧ target entry.1 heading.title = anchor := by
  rw [anchor?_replay, Option.or_eq_some_iff] at found
  rcases found with none | ⟨_, found⟩
  · cases none
  · obtain ⟨⟨path, heading⟩, first, rfl⟩ := Option.map_eq_some_iff.mp found
    obtain ⟨entry, held, inside⟩ := List.mem_flatMap.mp (List.mem_of_find?_eq_some first)
    obtain ⟨_, listed, same⟩ := List.mem_map.mp inside
    cases same
    exact ⟨entry, held, heading, listed, by simpa using List.find?_some first, rfl⟩

end Site

namespace Manual

variable {catalog : Catalog} {options : Options} {built : Site}

/-- When a manual can be made and no document path is used twice, the anchor of an entity is the
path of a document with the slug of a title, and the document shows the entity under this title,
which is its name: the content has a header line of the first level for the entity of the
document and one of the third level for a member that is shown on it. -/
theorem anchors_lead_to_headers {documents : List Document} {warnings : List Diagnostic}
    (generated : generate catalog options = .ok (documents, warnings))
    (once : ((trace catalog options).map (·.1)).Nodup) :
    ∃ built, site catalog options = .ok built ∧
      built = Site.empty.replay (trace catalog options) ∧
      ∀ id anchor, built.anchor? id = some anchor →
        ∃ path page heading entity, (path, page) ∈ built.documents ∧ page.Shows heading ∧
          heading.id = id ∧ anchor = path ++ "#" ++ slug heading.title ∧
          catalog.entity? id = some entity ∧ heading.title = entity.name := by
  obtain ⟨built, made, _⟩ := generate_eq_ok_iff.mp generated
  refine ⟨built, made, (site_eq_replay made).2, fun id anchor found => ?_⟩
  rw [(site_eq_replay made).2] at found
  obtain ⟨entry, held, heading, listed, rfl, rfl⟩ := Site.exists_heading_of_anchor?_replay found
  obtain ⟨path, entity, placed, rfl⟩ := mem_trace_iff.mp held
  have written : (path, page catalog options entity) ∈ built.documents := by
    rw [documents_of_site made]
    exact Site.mem_settled_of_nodup once held
  obtain ⟨shown, documented, registered, named⟩ :=
    Page.shows_of_mem_listings placed.entity? listed
  refine ⟨path, _, heading, documented, written, ?_, rfl, rfl, registered, named⟩
  -- The site keeps the page without its members, which does not change what it shows.
  cases shown with
  | title top line => exact .title top line
  | member top below line => exact .member top below line

/-- The source file, the class, its property and the function of the shapes have anchors, on two
documents. -/
theorem anchors_of_shapes_lead_to_headers :
    ∃ documents warnings, generate shapes .default = .ok (documents, warnings) ∧
      ((trace shapes .default).map (·.1)).Nodup ∧
      ∃ built, site shapes .default = .ok built ∧
        built.anchors.map (·.2) = ["geometry.md#geometry", "geometry.md#area",
          "geometry/shape.md#shape", "geometry/shape.md#measures"] ∧
        ∀ id anchor, built.anchor? id = some anchor →
          ∃ path page heading entity, (path, page) ∈ built.documents ∧ page.Shows heading ∧
            heading.id = id ∧ anchor = path ++ "#" ++ slug heading.title ∧
            shapes.entity? id = some entity ∧ heading.title = entity.name := by
  have once : ((trace shapes .default).map (·.1)).Nodup := by decide +kernel
  obtain ⟨documents, warnings, generated⟩ :=
    @exists_generated_of_isOk shapes .default (by decide +kernel)
  obtain ⟨built, made, _, lead⟩ := anchors_lead_to_headers generated once
  refine ⟨documents, warnings, generated, once, built, made, ?_, lead⟩
  have anchorsEq : (site shapes .default).toOption.map (·.anchors.map (·.2)) =
      some ["geometry.md#geometry", "geometry.md#area", "geometry/shape.md#shape",
        "geometry/shape.md#measures"] := by decide +kernel
  rw [made] at anchorsEq
  exact Option.some.inj anchorsEq

end Manual

end ApiManual
