import ApiManual.Proofs.Manual.LinkTargets
import ApiManual.Proofs.Site.Closed
import ApiManual.Proofs.Site.Trace

/-!
# Accounting for references

Every entity that a document refers to, in its content or in its table of contents, is
accounted for once: by a definition at the end of the document when something is resolved for
it, and by a warning otherwise.  Both come in the order of first use.

A table of contents is laid out in rows, and the entities that it links to are those of its
rows.  They never cause a warning, since every heading on a document of the site has an
anchor: it had one when the page was placed, and anchors stay, whatever fails later and
whatever page takes the place.
-/

namespace ApiManual

namespace Contents

variable {catalog : Catalog} {page : Page}

/-- A row of a table of contents: a link to a heading or the label of a group. -/
inductive Row where
  | link (depth : Nat) (heading : Heading)
  | label (depth : Nat) (text : String)

namespace Row

/-- A row as it is written. -/
def line : Row → String
  | .link depth heading => Markdown.listIndent depth ++ "- " ++ Contents.link heading
  | .label depth text => Markdown.listIndent depth ++ "- " ++ text

/-- The entity that a row links to. -/
def linked? : Row → Option EntityId
  | .link _ heading => some heading.id
  | .label _ _ => none

end Row

/-- The rows of an entry, from top to bottom. -/
def Entry.rows (entry : Entry) : List Row :=
  .link 0 entry.heading :: entry.groups.flatMap fun (group, headings) =>
    .label 1 group.label :: headings.map (.link 2)

/-- The rows of the table of contents of a page, from top to bottom. -/
def rows (catalog : Catalog) (page : Page) : List Row :=
  (entries catalog page).flatMap Entry.rows

/-- Rows under a title. -/
def titled (rows : List Row) : List String :=
  if rows.isEmpty then [] else "# Table of contents" :: "" :: rows.map Row.line ++ [""]

theorem listLines_eq_flatMap (depth : Nat) (items : List Markdown.ListItem) :
    Markdown.listLines depth items = items.flatMap (Markdown.itemLines depth) := by
  induction items with
  | nil => rfl
  | cons item rest ih => rw [Markdown.listLines, ih, List.flatMap_cons]

/-- The lines of an entry are its rows: one for its heading, one for each group, and one for
each heading of a group. -/
theorem itemLines_item (entry : Entry) :
    Markdown.itemLines 0 (item entry) = entry.rows.map Row.line := by
  have leaves : ∀ headings : List Heading,
      Markdown.listLines 2 (headings.map fun heading => ⟨link heading, []⟩) =
        (headings.map (.link 2)).map Row.line := by
    intro headings
    induction headings with
    | nil => rfl
    | cons heading rest ih =>
        rw [List.map_cons, Markdown.listLines, ih]
        rfl
  have branch : ∀ shown : MemberGroup × List Heading,
      Markdown.itemLines 1 ⟨shown.1.label, shown.2.map fun heading => ⟨link heading, []⟩⟩ =
        (.label 1 shown.1.label :: shown.2.map (.link 2)).map Row.line := by
    intro shown
    rw [Markdown.itemLines, leaves]
    rfl
  rw [item, Markdown.itemLines, listLines_eq_flatMap, List.flatMap_map, Entry.rows,
    List.map_cons, List.map_flatMap]
  simp only [branch]
  rfl

/-- A table of contents is written row by row. -/
theorem lines_eq_titled (catalog : Catalog) (page : Page) :
    lines catalog page = titled (rows catalog page) := by
  have empty : (rows catalog page).isEmpty = (entries catalog page).isEmpty := by
    rw [rows]
    cases entries catalog page <;> rfl
  have items : Markdown.listLines 0 ((entries catalog page).map item) =
      (rows catalog page).map Row.line := by
    rw [listLines_eq_flatMap, List.flatMap_map, rows, List.map_flatMap]
    simp only [itemLines_item]
  rw [lines, titled, empty]
  split
  · rfl
  · rw [← items]
    rfl

/-- The entities that a table of contents is said to link to are those that its rows link
to. -/
theorem linkedIds_eq_rows (catalog : Catalog) (page : Page) :
    linkedIds catalog page = (rows catalog page).filterMap Row.linked? := by
  have leaves : ∀ headings : List Heading,
      (headings.map (.link 2)).filterMap Row.linked? = headings.map (·.id) := by
    intro headings
    rw [List.filterMap_map, ← List.filterMap_eq_map]
    rfl
  have branch : ∀ shown : MemberGroup × List Heading,
      (.label 1 shown.1.label :: shown.2.map (.link 2)).filterMap Row.linked? =
        shown.2.map (·.id) := by
    intro shown
    rw [List.filterMap_cons, leaves]
    rfl
  have entry : ∀ entry : Entry, entry.rows.filterMap Row.linked? =
      entry.heading.id :: entry.groups.flatMap fun (_, headings) => headings.map (·.id) := by
    intro entry
    rw [Entry.rows, List.filterMap_cons, List.filterMap_flatMap]
    simp only [branch]
    rfl
  simp only [linkedIds, rows, List.filterMap_flatMap, entry]

end Contents

namespace Site

variable {catalog : Catalog} {extension : String} {site : Site} {path : String} {page : Page}
  {showContents : Bool}

/-! ## Headings of documents -/

/-- After any calls every heading on a document has an anchor. -/
theorem isSome_anchor?_of_run {calls : List Call} {heading : Heading}
    (committed : (path, page) ∈ (run catalog extension .empty calls).1.documents)
    (listed : heading ∈ Heading.listings page.headings) :
    ((run catalog extension .empty calls).1.anchor? heading.id).isSome := by
  rw [run_eq_replay] at committed ⊢
  dsimp only at committed ⊢
  rw [documents_replay fun _ member => alone_of_mem_trace member] at committed
  exact isSome_anchor?_replay.mpr ⟨_, mem_of_mem_settled committed, heading, listed, rfl⟩

/-! ## References of a document -/

/-- The entities that the table of contents of a page links to, if it has one. -/
def linkedFromContents (catalog : Catalog) (showContents : Bool) (page : Page) :
    List EntityId :=
  if showContents then (Contents.rows catalog page).filterMap (·.linked?) else []

/-- A page refers to what it uses and then to what only its table of contents links to. -/
theorem ids_references :
    (references catalog showContents page).ids =
      (page.used.ids ++ linkedFromContents catalog showContents page).eraseDups := by
  cases showContents with
  | false =>
      have nothing : linkedFromContents catalog false page = [] := rfl
      rw [nothing, List.append_nil, References.eraseDups_of_nodup page.used.nodup]
      rfl
  | true =>
      have linked : linkedFromContents catalog true page = Contents.linkedIds catalog page :=
        (Contents.linkedIds_eq_rows catalog page).symm
      rw [linked, ← References.ids_insertAll]
      rfl

theorem exists_heading_of_mem_linkedFromContents {id : EntityId}
    (linked : id ∈ linkedFromContents catalog showContents page) :
    ∃ heading ∈ Heading.listings page.headings, heading.id = id := by
  cases showContents with
  | false => cases linked
  | true =>
      have member : id ∈ Contents.linkedIds catalog page :=
        Contents.linkedIds_eq_rows catalog page ▸ linked
      obtain ⟨entry, inEntries, heading, inEntry, same⟩ := Contents.mem_linkedIds.mp member
      exact ⟨heading, (Contents.of_mem_entries inEntries).1 heading inEntry, same⟩

/-! ## Definitions and warnings -/

/-- What is written for a page at a path accounts for the entities that the page refers to:
some are defined at the end of the document and the others are reported. The entities that the
table of contents links to come after those that the page uses. -/
structure Accounted (catalog : Catalog) (showContents : Bool) (site : Site) (path : String)
    (page : Page) (defined reported : List EntityId) : Prop where
  /-- Each definition at the end of the document is that of the entity in its place. -/
  written : ∃ lines, lines.map some = defined.map (site.definition? catalog path) ∧
    (site.documentAt catalog showContents path page).1.content =
      (if showContents then Contents.titled (Contents.rows catalog page) else []) ++
        site.strippedContent catalog showContents page ++ lines
  /-- Each warning is for the entity in its place. -/
  warned : (site.documentAt catalog showContents path page).2 =
    reported.map fun id => .warning id (catalog.entity? id) undocumentedMessage
  once : (defined ++ reported).Nodup
  complete : ∀ id, id ∈ defined ++ reported ↔
    id ∈ page.used.ids ∨ id ∈ linkedFromContents catalog showContents page
  defined_order : defined.Sublist
    (page.used.ids ++ linkedFromContents catalog showContents page).eraseDups
  reported_order : reported.Sublist
    (page.used.ids ++ linkedFromContents catalog showContents page).eraseDups
  linked_not_reported :
    ∀ id ∈ linkedFromContents catalog showContents page, id ∉ reported

/-- Definitions are written for exactly those references for which something is resolved. -/
theorem map_some_filterMap_definition? (ids : List EntityId) :
    (ids.filterMap (site.definition? catalog path)).map some =
      (ids.filter fun id => (site.resolve? catalog id).isSome).map
        (site.definition? catalog path) := by
  induction ids with
  | nil => rfl
  | cons id rest ih =>
      cases resolved : site.resolve? catalog id with
      | none =>
          rw [List.filterMap_cons, definition?_of_unresolved resolved, List.filter_cons, resolved]
          exact ih
      | some target =>
          rw [List.filterMap_cons, definition?_of_resolved resolved, List.filter_cons, resolved,
            List.map_cons, ih]
          simp only [Option.isSome_some, if_true, List.map_cons, definition?_of_resolved resolved]

/-- The documents and warnings of a site are those of its pages, one after the other. -/
theorem output_eq (catalog : Catalog) (showContents : Bool) (site : Site) :
    site.output catalog showContents =
      (site.documents.map fun entry =>
          (site.documentAt catalog showContents entry.1 entry.2).1,
        site.documents.flatMap fun entry =>
          (site.documentAt catalog showContents entry.1 entry.2).2) := by
  simp only [output, List.map_map, List.flatMap_map]
  rfl

/-- The references of a page for which something is resolved. -/
def documented (catalog : Catalog) (showContents : Bool) (site : Site) (page : Page) :
    List EntityId :=
  (references catalog showContents page).ids.filter fun id => (site.resolve? catalog id).isSome

/-- The references of a page are those for which something is resolved and the others. -/
theorem documented_append_undocumented_perm (catalog : Catalog) (showContents : Bool)
    (site : Site) (page : Page) :
    (site.documented catalog showContents page ++
      site.undocumented catalog showContents page).Perm
        (references catalog showContents page).ids := by
  simp only [documented, undocumented, ← Option.not_isSome]
  exact List.filter_append_perm _ _

/-- A site on which the headings of a page have anchors accounts for the references of the
page. -/
theorem accounted
    (indexed : ∀ heading ∈ Heading.listings page.headings, (site.anchor? heading.id).isSome) :
    Accounted catalog showContents site path page
      (site.documented catalog showContents page)
      (site.undocumented catalog showContents page) := by
  have partition := documented_append_undocumented_perm catalog showContents site page
  refine {
    written := ?_, warned := rfl, once := ?_, complete := ?_, defined_order := ?_
    reported_order := ?_, linked_not_reported := ?_ }
  · refine ⟨site.definitions catalog showContents path page,
      map_some_filterMap_definition? _, ?_⟩
    rw [← Contents.lines_eq_titled]
    rfl
  · exact partition.nodup_iff.mpr (references catalog showContents page).nodup
  · intro id
    rw [partition.mem_iff, ids_references, List.mem_eraseDups, List.mem_append]
  · rw [← ids_references]
    exact List.filter_sublist
  · rw [← ids_references]
    exact List.filter_sublist
  · intro id linked reported
    obtain ⟨heading, listed, rfl⟩ := exists_heading_of_mem_linkedFromContents linked
    have resolved : (site.resolve? catalog heading.id).isSome :=
      isSome_resolve?_of_anchor? (indexed heading listed)
    have missing := (List.mem_filter.mp reported).2
    rw [← Option.not_isSome, resolved] at missing
    cases missing

/-- An entity is reported when the page uses it and nothing is resolved for it. -/
theorem mem_undocumented_iff
    (indexed : ∀ heading ∈ Heading.listings page.headings, (site.anchor? heading.id).isSome)
    {id : EntityId} :
    id ∈ site.undocumented catalog showContents page ↔
      id ∈ page.used.ids ∧ site.resolve? catalog id = none := by
  have account : Accounted catalog showContents site "" page _ _ := accounted indexed
  constructor
  · intro reported
    refine ⟨?_, Option.isNone_iff_eq_none.mp (List.mem_filter.mp reported).2⟩
    rcases (account.complete id).mp (List.mem_append_right _ reported) with used | linked
    · exact used
    · exact absurd reported (account.linked_not_reported id linked)
  · rintro ⟨used, missing⟩
    exact List.mem_filter.mpr
      ⟨mem_references_of_mem_used used, Option.isNone_iff_eq_none.mpr missing⟩

/-- After any calls, also failed ones, what is written for a page accounts for every entity
that the page uses or that its table of contents links to: each is either defined or reported,
only once, in the order of first use, and what the table of contents links to is defined. What
is written for a site is what is written for its pages. -/
theorem references_accounted_for {calls : List Call} (showContents : Bool)
    (siteEq : (run catalog extension .empty calls).1 = site)
    (committed : (path, page) ∈ site.documents) :
    site.output catalog showContents =
      (site.documents.map fun entry =>
          (site.documentAt catalog showContents entry.1 entry.2).1,
        site.documents.flatMap fun entry =>
          (site.documentAt catalog showContents entry.1 entry.2).2) ∧
      ∃ defined reported,
        Accounted catalog showContents site path page defined reported := by
  subst siteEq
  exact ⟨output_eq catalog showContents _, _, _,
    accounted fun _ listed => isSome_anchor?_of_run committed listed⟩

/-- Calls that place a page with a table of contents and then fail: one member of the page is
not registered, and neither is the second page. -/
def interrupted : List Call :=
  [.item
    { id := ⟨"file:geometry"⟩
      content := ["# geometry", "", "[Point][type:Point], [area][function:area]"]
      headings := [⟨"geometry", ⟨"file:geometry"⟩, [⟨"area", ⟨"function:area"⟩, []⟩]⟩]
      used := .ofList [⟨"type:Point"⟩, ⟨"function:area"⟩]
      members := [⟨⟨"class:Gone"⟩, [], [], .empty, []⟩] } "geometry.md",
   .entry ⟨⟨"file:gone"⟩, [], [], .empty, []⟩]

/-- The page that was placed before the first call failed is accounted for. -/
theorem references_accounted_for_interrupted :
    ∃ page, ("geometry.md", page) ∈
        (run Manual.shapes "md" .empty interrupted).1.documents ∧
      ∃ defined reported, Accounted Manual.shapes true
        (run Manual.shapes "md" .empty interrupted).1 "geometry.md" page defined reported := by
  have paths : (run Manual.shapes "md" .empty interrupted).1.paths = ["geometry.md"] := by
    decide +kernel
  obtain ⟨⟨path, page⟩, placed, rfl⟩ :=
    List.mem_map.mp (paths ▸ List.mem_singleton_self "geometry.md")
  exact ⟨page, placed, (references_accounted_for true rfl placed).2⟩

end Site

end ApiManual
