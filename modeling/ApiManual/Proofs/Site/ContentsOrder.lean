import ApiManual.Proofs.Page.Sections
import ApiManual.Proofs.Site.Accounting

/-!
# The order of a table of contents

A page is laid out by the groups of its entity, and its table of contents sorts the headings of
the page into the same groups by looking their entities up again.  Both yield the same sections,
since no kind is in two groups: the headings of a section are found again, in their order and as
often as they are, and no others.
-/

namespace ApiManual

open Page (Section sections)

namespace Contents

variable {catalog : Catalog} {entity : Entity} {part : Section}

/-- The rows of a table of contents that follows sections: a link to the top heading and, for
each section that has headings, its label with links to them. -/
def outline (top : Heading) (parts : List Section) : List Row :=
  .link 0 top :: (parts.filter (!·.headings.isEmpty)).flatMap fun part =>
    .label 1 part.group.label :: part.headings.map (.link 2)

/-! ## Sorting headings into groups -/

/-- The headings of a section are of entities that its group lists. -/
theorem listedIn_of_mem_headings {group : MemberGroup} {heading : Heading}
    (inside : heading ∈ (Section.ofGroup catalog entity group).headings) :
    catalog.listedIn group heading.id := by
  obtain ⟨member, shown, rfl⟩ := List.mem_map.mp inside
  obtain ⟨_, registered, lists⟩ := Page.mem_listed_iff.mp (List.mem_filter.mp shown).1
  rw [Catalog.listedIn, Catalog.kind?, registered]
  exact lists

/-- Each group finds the headings of its section among those of all sections. -/
theorem headingsIn_flatMap {groups : List MemberGroup}
    (apart : groups.Pairwise fun left right => ∀ kind ∈ left.kinds, kind ∉ right.kinds) :
    ∀ group ∈ groups,
      headingsIn catalog
          (groups.flatMap fun group => (Section.ofGroup catalog entity group).headings) group =
        (Section.ofGroup catalog entity group).headings :=
  Catalog.filter_flatMap_groups Heading.id (fun _ _ => listedIn_of_mem_headings) apart

/-- The groups of a table of contents are the sections that have headings. -/
theorem grouped_headings (catalog : Catalog) (entity : Entity) :
    grouped catalog entity.kind.memberGroups
        ((sections catalog entity).flatMap Section.headings) =
      ((sections catalog entity).filter (!·.headings.isEmpty)).map fun part =>
        (part.group, part.headings) := by
  have all : (sections catalog entity).flatMap Section.headings =
      entity.kind.memberGroups.flatMap fun group =>
        (Section.ofGroup catalog entity group).headings := by
    rw [sections, Page.flatMap_filter, List.flatMap_map]
    simp only [Page.headings_of_members]
  have kept : ∀ part : Section,
      (!part.headings.isEmpty && !part.members.isEmpty) = !part.headings.isEmpty := by
    rintro ⟨group, members⟩
    cases members with
    | nil => rfl
    | cons member rest => exact Bool.and_true _
  have sorted : entity.kind.memberGroups.map (fun group =>
        (group, headingsIn catalog ((sections catalog entity).flatMap Section.headings) group)) =
      (entity.kind.memberGroups.map (Section.ofGroup catalog entity)).map fun part =>
        (part.group, part.headings) := by
    rw [List.map_map]
    apply List.map_congr_left
    intro group member
    rw [all, headingsIn_flatMap entity.kind.memberGroups_disjoint group member]
    rfl
  rw [grouped, sorted, List.filter_map, sections, List.filter_filter]
  simp only [kept]
  rfl

/-! ## The table of contents of a page -/

/-- The page of an entity has at most one entry, with the sections that have headings. -/
theorem entries_render (registered : catalog.entity? entity.id = some entity)
    (language : String) :
    entries catalog (Page.render catalog language entity (.of entity)) =
      let below := (sections catalog entity).flatMap Section.headings
      if below.isEmpty then []
      else [⟨⟨entity.name, entity.id, below⟩,
        ((sections catalog entity).filter (!·.headings.isEmpty)).map fun part =>
          (part.group, part.headings)⟩] := by
  have kind : catalog.kind? entity.id = some entity.kind := by
    rw [Catalog.kind?, registered, Option.map_some]
  have id : (Page.render catalog language entity (.of entity)).id = entity.id :=
    Page.id_render catalog language entity (.of entity)
  have empty : (((sections catalog entity).filter (!·.headings.isEmpty)).map fun part =>
      (part.group, part.headings)).isEmpty =
        ((sections catalog entity).flatMap Section.headings).isEmpty := by
    rw [List.isEmpty_map, Bool.eq_iff_iff]
    simp [List.filter_eq_nil_iff, List.flatMap_eq_nil_iff]
  rw [entries, Page.headings_render_eq, id, kind, List.map_singleton, Option.map_some,
    Option.getD_some, grouped_headings]
  dsimp only
  rw [List.filter_cons, List.filter_nil, empty]
  cases ((sections catalog entity).flatMap Section.headings).isEmpty <;> rfl

theorem filterMap_linked?_outline (top : Heading) (parts : List Section) :
    (outline top parts).filterMap Row.linked? =
      top.id :: (parts.flatMap Section.headings).map (·.id) := by
  have links : ∀ part : Section,
      (.label 1 part.group.label :: part.headings.map (.link 2)).filterMap Row.linked? =
        part.headings.map (·.id) := by
    intro part
    rw [List.filterMap_cons, List.filterMap_map, ← List.filterMap_eq_map]
    rfl
  have kept : ∀ part : Section, (if !part.headings.isEmpty then part.headings.map (·.id)
      else []) = part.headings.map (·.id) := by
    intro part
    cases part.headings <;> rfl
  rw [outline, List.filterMap_cons, List.filterMap_flatMap, List.map_flatMap]
  simp only [links, Page.flatMap_filter, kept]
  rfl

/-- The table of contents of an entity follows its page. The page consists of sections, with a
header for each heading; the table of contents is empty when there are no such headings, and
otherwise it links to the entity and then to each heading under the label of its section, in the
order of the page. -/
theorem contents_follow_page (language : String)
    (registered : catalog.entity? entity.id = some entity) :
    let page := Page.render catalog language entity (.of entity)
    let parts := sections catalog entity
    let below := parts.flatMap Section.headings
    page.content = Page.ownLines catalog language entity ++
        parts.flatMap (Section.lines catalog language) ∧
      page.headings = [⟨entity.name, entity.id, below⟩] ∧
      (lines catalog page = [] ↔ below = []) ∧
      (below ≠ [] →
        lines catalog page = titled (outline ⟨entity.name, entity.id, below⟩ parts) ∧
          (outline ⟨entity.name, entity.id, below⟩ parts).filterMap Row.linked? =
            entity.id :: below.map (·.id) ∧
          linkedIds catalog page = entity.id :: below.map (·.id)) := by
  intro page parts below
  have listing : entries catalog page = if below.isEmpty then [] else _ :=
    entries_render registered language
  refine ⟨Page.content_render catalog language entity,
    Page.headings_render_eq catalog language entity, ?_, ?_⟩
  · rw [lines, listing]
    cases below with
    | nil => exact iff_of_true rfl rfl
    | cons heading rest => exact iff_of_false (List.cons_ne_nil _ _) (List.cons_ne_nil _ _)
  · intro some
    have written : rows catalog page = outline ⟨entity.name, entity.id, below⟩ parts := by
      rw [rows, listing, if_neg (by simpa using some), List.flatMap_singleton, Entry.rows,
        List.flatMap_map]
      rfl
    have linked := filterMap_linked?_outline ⟨entity.name, entity.id, below⟩ parts
    refine ⟨?_, linked, ?_⟩
    · rw [lines_eq_titled, written]
    · rw [linkedIds_eq_rows, written, linked]

/-- A source file that lists its members in no order and one of them twice. Another member is
of a kind that source files do not list. -/
def workshopFile : Entity where
  id := ⟨"file:workshop"⟩
  name := "workshop"
  parent := none
  location := ⟨"src/workshop.ts", 1, 1⟩
  doc := none
  declaration := .sourceFile
    [⟨"variable:width"⟩, ⟨"function:cut"⟩, ⟨"property:stray"⟩, ⟨"class:Saw"⟩,
     ⟨"function:join"⟩, ⟨"function:cut"⟩]

/-- The source file and its members. -/
def workshop : Catalog where
  registry := {
    entities := [workshopFile,
      { id := ⟨"variable:width"⟩, name := "width", parent := none
        location := ⟨"src/workshop.ts", 2, 1⟩, doc := none
        declaration := .variableBinding none .constant },
      { id := ⟨"function:cut"⟩, name := "cut", parent := none
        location := ⟨"src/workshop.ts", 3, 1⟩, doc := some "Cuts a board."
        declaration := .function [] [] none false },
      { id := ⟨"property:stray"⟩, name := "stray", parent := none
        location := ⟨"src/workshop.ts", 4, 1⟩, doc := none
        declaration := .property none false false false },
      { id := ⟨"class:Saw"⟩, name := "Saw", parent := none
        location := ⟨"src/workshop.ts", 5, 1⟩, doc := none
        declaration := .classType [] none [] [] false },
      { id := ⟨"function:join"⟩, name := "join", parent := none
        location := ⟨"src/workshop.ts", 7, 1⟩, doc := none
        declaration := .function [] [] none false }]
    entryPoints := [⟨"file:workshop"⟩]
    ids_nodup := by decide
    entryPoints_registered := by decide }
  references_registered := by decide
  lineages_end := by decide +kernel
  order := [⟨"file:workshop"⟩, ⟨"variable:width"⟩, ⟨"function:cut"⟩, ⟨"property:stray"⟩,
    ⟨"class:Saw"⟩, ⟨"function:join"⟩]
  order_containersFirst :=
    .cons (by decide) (by decide) (.cons (by decide) (by decide) (.cons (by decide) (by decide)
      (.cons (by decide) (by decide) (.cons (by decide) (by decide)
        (.cons (by decide) (by decide) .nil)))))
  order_complete := by decide

/-- The repeated function has two links, below the label of its group; the class has a page of
its own, and the property is in no group. -/
theorem contents_of_workshop_follow_page :
    let page := Page.render workshop "typescript" workshopFile (.of workshopFile)
    let parts := sections workshop workshopFile
    parts.map (fun part => (part.group.label, part.headings.map (·.title))) =
        [("Classes", []), ("Functions", ["cut", "join", "cut"]), ("Variables", ["width"])] ∧
      lines workshop page = titled
        (outline ⟨"workshop", ⟨"file:workshop"⟩, parts.flatMap Section.headings⟩ parts) ∧
      linkedIds workshop page = [⟨"file:workshop"⟩, ⟨"function:cut"⟩, ⟨"function:join"⟩,
        ⟨"function:cut"⟩, ⟨"variable:width"⟩] := by
  have registered : workshop.entity? workshopFile.id = some workshopFile := by rfl
  have follow := contents_follow_page "typescript" registered
  have ids : ((sections workshop workshopFile).flatMap Section.headings).map (·.id) =
      [⟨"function:cut"⟩, ⟨"function:join"⟩, ⟨"function:cut"⟩, ⟨"variable:width"⟩] := by
    decide +kernel
  obtain ⟨_, _, _, follow⟩ := follow
  obtain ⟨written, _, linked⟩ := follow fun none => by
    rw [none] at ids
    cases ids
  refine ⟨by decide +kernel, written, ?_⟩
  rw [linked, ids]
  rfl

end Contents

end ApiManual
