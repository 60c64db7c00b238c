import ApiManual.Proofs.Manual.Anchors
import ApiManual.Proofs.Manual.ClosedLinks
import ApiManual.Proofs.Markdown.Nesting
import ApiManual.Proofs.Site.Accounting

/-!
# Links to what is reported

What a document reports is stripped from its content.  A link to it is left only if stripping
does not find it, because its text is empty or holds brackets, or if stripping finds it too late,
because other links are nested in its brackets.  The table of contents and the definitions hold
no such link either, unless names bring brackets into them.
-/

namespace ApiManual

open Stripping (BracketFree Linked Unnested isLinkText linkEnd linked_iff stripAll)

namespace Stripping

variable {text target line front name id : List Char}

/-- The number of brackets in a text. -/
def brackets (chars : List Char) : Nat := chars.countP (!isLinkText ·)

theorem brackets_eq_zero_iff : brackets line = 0 ↔ BracketFree line := by
  simp [brackets, BracketFree, List.countP_eq_zero]

/-- A link takes four brackets. -/
theorem brackets_link (front name id after : List Char) :
    brackets (front ++ '[' :: (name ++ ']' :: '[' :: (id ++ ']' :: after))) =
      brackets front + brackets name + brackets id + brackets after + 4 := by
  have opening : isLinkText '[' = false := rfl
  have closing : isLinkText ']' = false := rfl
  simp only [brackets, List.countP_append, List.countP_cons, opening, closing, Bool.not_false,
    if_true]
  omega

theorem Linked.four_le_brackets (linked : Linked text target line) : 4 ≤ brackets line := by
  obtain ⟨front, back, rfl⟩ := linked_iff.mp linked
  rw [brackets_link]
  omega

theorem BracketFree.not_linked (free : BracketFree line) :
    ¬ Linked text target line := fun linked => by
  have many := linked.four_le_brackets
  rw [brackets_eq_zero_iff.mpr free] at many
  cases many

/-- What is linked on a line with one link is what this link leads to. -/
theorem Linked.eq_of_single (linked : Linked text target (front ++ '[' :: (name ++ linkEnd id)))
    (frontFree : BracketFree front) (nameFree : BracketFree name) (free : BracketFree id) :
    target = id := by
  obtain ⟨before, after, whole⟩ := linked_iff.mp linked
  have ends : name ++ linkEnd id = name ++ ']' :: '[' :: (id ++ ']' :: []) := by simp [linkEnd]
  rw [ends] at whole
  have counts := congrArg brackets whole
  rw [brackets_link, brackets_link, brackets_eq_zero_iff.mpr frontFree,
    brackets_eq_zero_iff.mpr nameFree, brackets_eq_zero_iff.mpr free,
    brackets_eq_zero_iff.mpr BracketFree.nil] at counts
  have beforeFree : BracketFree before := brackets_eq_zero_iff.mp (by omega)
  have textFree : BracketFree text := brackets_eq_zero_iff.mp (by omega)
  have targetFree : BracketFree target := brackets_eq_zero_iff.mp (by omega)
  obtain ⟨_, _, names⟩ := append_bracket_inj frontFree beforeFree rfl rfl whole
  obtain ⟨_, _, ends⟩ := append_bracket_inj nameFree textFree rfl rfl names
  exact (append_bracket_inj free targetFree rfl rfl (List.tail_eq_of_cons_eq ends)).1.symm

end Stripping

/-! ## Tables of contents and definitions -/

namespace Contents

variable {catalog : Catalog} {page : Page}

/-- A row links to a heading of the page or bears a label without brackets. -/
theorem of_mem_rows {row : Row} (listed : row ∈ rows catalog page) :
    match row with
    | .link _ heading =>
        heading ∈ Heading.listings page.headings ∧ heading.id ∈ linkedIds catalog page
    | .label _ text => BracketFree text.toList := by
  have linkedRow : ∀ id, row.linked? = some id → id ∈ linkedIds catalog page := by
    intro id linked
    rw [linkedIds_eq_rows]
    exact List.mem_filterMap.mpr ⟨row, listed, linked⟩
  obtain ⟨entry, inEntries, inside⟩ := List.mem_flatMap.mp listed
  obtain ⟨placed, labels⟩ := of_mem_entries inEntries
  rcases List.mem_cons.mp inside with rfl | below
  · exact ⟨placed _ List.mem_cons_self, linkedRow _ rfl⟩
  · obtain ⟨shown, inGroups, inGroup⟩ := List.mem_flatMap.mp below
    rcases List.mem_cons.mp inGroup with rfl | leaf
    · exact labels shown inGroups
    · obtain ⟨heading, held, rfl⟩ := List.mem_map.mp leaf
      exact ⟨placed heading (List.mem_cons_of_mem _ (List.mem_flatMap.mpr ⟨shown, inGroups, held⟩)),
        linkedRow _ rfl⟩

/-- What a table of contents links to is linked from its rows. -/
theorem mem_linkedIds_of_linked {text : List Char} {id : EntityId} {line : String}
    (titlesFree : ∀ heading ∈ Heading.listings page.headings, BracketFree heading.title.toList)
    (idsFree : ∀ id ∈ linkedIds catalog page, BracketFree id.text.toList)
    (inside : line ∈ lines catalog page) (linked : Linked text id.text.toList line.toList) :
    id ∈ linkedIds catalog page := by
  have indentFree : ∀ depth, BracketFree (Markdown.listIndent depth ++ "- ").toList := by
    intro depth
    have indent : BracketFree (Markdown.listIndent depth).toList :=
      Markdown.bracketFree_replicate _ (by decide)
    exact indent.concat (by decide)
  rw [lines_eq_titled, titled] at inside
  split at inside
  · cases inside
  · rw [List.cons_append, List.cons_append, List.mem_cons, List.mem_cons, List.mem_append,
      List.mem_singleton] at inside
    rcases inside with rfl | rfl | inRows | rfl
    · exact absurd linked (Stripping.BracketFree.not_linked (by decide))
    · exact absurd linked (Stripping.BracketFree.not_linked (by decide))
    · obtain ⟨row, listed, rfl⟩ := List.mem_map.mp inRows
      have shown := of_mem_rows listed
      cases row with
      | label depth label =>
          exact absurd linked ((indentFree depth).concat shown).not_linked
      | link depth heading =>
          obtain ⟨placed, known⟩ := shown
          rw [Row.line, String.toList_append, link, Markdown.toList_link] at linked
          have same := linked.eq_of_single (indentFree depth) (titlesFree heading placed)
            (idsFree _ known)
          rwa [EntityId.eq_iff.mpr (String.toList_inj.mp same)]
    · exact absurd linked (Stripping.BracketFree.not_linked (by decide))

end Contents

namespace Markdown

/-- A definition has two brackets, which make no link. -/
theorem not_linked_linkDefinition {text name : List Char} {id : EntityId} {target : String}
    (free : BracketFree id.text.toList) (targetFree : BracketFree target.toList) :
    ¬ Linked text name (linkDefinition id target).toList := fun linked => by
  have many := linked.four_le_brackets
  have idCount := Stripping.brackets_eq_zero_iff.mpr free
  have targetCount := Stripping.brackets_eq_zero_iff.mpr targetFree
  rw [Stripping.brackets] at many idCount targetCount
  have frontCount : "[".toList.countP (!isLinkText ·) = 1 := by decide
  have endCount : "]: ".toList.countP (!isLinkText ·) = 1 := by decide
  simp only [linkDefinition, String.toList_append, List.countP_append, idCount, targetCount,
    frontCount, endCount] at many
  omega

end Markdown

/-! ## Documents -/

/-- The names, the source files and the extension of a manual hold no brackets. -/
structure Catalog.NamesFree (catalog : Catalog) (extension : String) : Prop where
  extension : BracketFree extension.toList
  names : ∀ entity ∈ catalog.registry.entities, BracketFree entity.name.toList
  fileNames : ∀ entity ∈ catalog.registry.entities, BracketFree entity.location.fileName.toList

namespace Catalog

variable {catalog : Catalog} {extension path : String} {entity : Entity}

instance (catalog : Catalog) (extension : String) : Decidable (catalog.NamesFree extension) :=
  decidable_of_iff
    (BracketFree extension.toList ∧
      (∀ entity ∈ catalog.registry.entities, BracketFree entity.name.toList) ∧
      ∀ entity ∈ catalog.registry.entities, BracketFree entity.location.fileName.toList)
    ⟨fun ⟨extension, names, fileNames⟩ => ⟨extension, names, fileNames⟩,
      fun free => ⟨free.extension, free.names, free.fileNames⟩⟩

theorem NamesFree.bracketFree_path (free : catalog.NamesFree extension)
    (placed : Placed catalog extension path entity) : BracketFree path.toList := by
  induction placed with
  | entryPoint listed found derived =>
      exact DocumentPath.bracketFree_entry
        (free.fileNames _ (Registry.get?_eq_some_iff.mp found).1) free.extension derived
  | nested outer inside ih =>
      have registered := Page.entity?_of_mem_nested inside
      exact DocumentPath.bracketFree_member ih
        (free.names _ (Registry.get?_eq_some_iff.mp registered).1) free.extension

end Catalog

namespace Site

variable {catalog : Catalog} {site : Site} {showContents : Bool} {path : String} {page : Page}

theorem strippedContent_eq (catalog : Catalog) (showContents : Bool) (site : Site) (page : Page) :
    site.strippedContent catalog showContents page =
      page.content.map fun line => String.ofList
        (stripAll (site.undocumented catalog showContents page) line.toList) := by
  rw [strippedContent]
  generalize site.undocumented catalog showContents page = ids
  generalize page.content = content
  induction ids generalizing content with
  | nil => simp [stripAll]
  | cons id rest ih =>
      rw [List.foldl_cons, ih, Stripping.lines, List.map_map]
      refine List.map_congr_left fun line _ => ?_
      simp [Stripping.line, stripAll]

/-- The document for a page holds a link with a text to an entity. -/
def HoldsLink (catalog : Catalog) (showContents : Bool) (site : Site) (path : String) (page : Page)
    (name : String) (id : EntityId) : Prop :=
  ∃ line ∈ (site.documentAt catalog showContents path page).1.content,
    (Markdown.link name id).toList <:+: line.toList

instance (catalog : Catalog) (showContents : Bool) (site : Site) (path : String) (page : Page)
    (name : String) (id : EntityId) :
    Decidable (site.HoldsLink catalog showContents path page name id) :=
  inferInstanceAs (Decidable (∃ line ∈ _, _))

/-- Nothing that is reported for a page is linked from the document for the page by a text that
is not empty and holds no brackets. -/
def StripsReported (catalog : Catalog) (showContents : Bool) (site : Site) (path : String)
    (page : Page) : Prop :=
  ∀ warning ∈ (site.documentAt catalog showContents path page).2, ∀ name, name ≠ "" →
    BracketFree name.toList → ¬ site.HoldsLink catalog showContents path page name warning.entity

end Site

/-! ## Manuals -/

namespace Manual

variable {catalog : Catalog} {options : Options} {built : Site} {path : String} {page : Page}

/-- The headings of a document bear names of entities and have anchors. -/
theorem heading_of_document (made : site catalog options = .ok built)
    (written : (path, page) ∈ built.documents) {heading : Heading}
    (listed : heading ∈ Heading.listings page.headings) :
    (∃ entity ∈ catalog.registry.entities, heading.title = entity.name) ∧
      (built.anchor? heading.id).isSome := by
  refine ⟨?_, isSome_anchor?_of_mem_documents made written heading listed⟩
  rw [documents_of_site made] at written
  obtain ⟨_, entity, placed, same⟩ := mem_trace_iff.mp (Site.mem_of_mem_settled written)
  cases same
  obtain ⟨_, documented, registered, title⟩ := Page.shows_of_mem_listings placed.entity? listed
  exact ⟨documented, (Registry.get?_eq_some_iff.mp registered).1, title⟩

/-- Links to documents hold no brackets when names do not. -/
theorem bracketFree_link (free : catalog.NamesFree options.extension)
    (made : site catalog options = .ok built) {id : EntityId} {link : String}
    (linked : built.link? catalog path id = some link) : BracketFree link.toList := by
  obtain ⟨goal, used, title, _, rfl⟩ :=
    (Site.link?_eq_some_iff (Site.anchored_of_site made)).mp linked
  obtain ⟨entity, placed⟩ := (mem_paths_iff made).mp used
  exact DocumentPath.bracketFree_relative (Site.bracketFree_target (free.bracketFree_path placed))

/-- The table of contents links to headings, which have anchors. -/
theorem resolve?_of_linked_contents (free : catalog.NamesFree options.extension)
    (made : site catalog options = .ok built) (written : (path, page) ∈ built.documents)
    (idsFree : ∀ id ∈ Contents.linkedIds catalog page, BracketFree id.text.toList)
    {text : List Char} {id : EntityId} {line : String}
    (inside : line ∈ Contents.lines catalog page)
    (linked : Linked text id.text.toList line.toList) :
    (built.resolve? catalog id).isSome := by
  have titlesFree : ∀ heading ∈ Heading.listings page.headings,
      BracketFree heading.title.toList := by
    intro heading listed
    obtain ⟨⟨entity, registered, title⟩, _⟩ := heading_of_document made written listed
    exact title ▸ free.names entity registered
  have known := Contents.mem_linkedIds_of_linked titlesFree idsFree inside linked
  obtain ⟨entry, inEntries, heading, inEntry, rfl⟩ := Contents.mem_linkedIds.mp known
  have placed := (Contents.of_mem_entries inEntries).1 heading inEntry
  exact Site.isSome_resolve?_of_anchor? (heading_of_document made written placed).2

/-- Without nested links, what is reported for a document is stripped from it. -/
theorem stripsReported_of_unnested (free : catalog.NamesFree options.extension)
    (made : site catalog options = .ok built) (written : (path, page) ∈ built.documents)
    (idsFree : ∀ id ∈ (Site.references catalog (!options.skipContents) page).ids,
      BracketFree id.text.toList)
    (unnested : ∀ line ∈ page.content,
      Unnested (built.undocumented catalog (!options.skipContents) page) line.toList) :
    built.StripsReported catalog (!options.skipContents) path page := by
  intro warning warned name named nameFree holds
  obtain ⟨id, reported, rfl⟩ := List.mem_map.mp warned
  obtain ⟨referred, unresolved⟩ := List.mem_filter.mp reported
  have textNamed : name.toList ≠ [] := fun empty => named (String.toList_eq_nil_iff.mp empty)
  obtain ⟨line, inside, found⟩ := holds
  rw [Markdown.toList_link] at found
  have linked : Linked name.toList id.text.toList line.toList := found
  rcases List.mem_append.mp inside with front | inDefinitions
  · rcases List.mem_append.mp front with inContents | inContent
    · split at inContents
      · next shown =>
          have contentsFree : ∀ id ∈ Contents.linkedIds catalog page,
              BracketFree id.text.toList := by
            intro other known
            refine idsFree other ?_
            rw [Site.references, if_pos shown]
            exact References.mem_ids_insertAll.mpr (.inr known)
          have resolved :=
            resolve?_of_linked_contents free made written contentsFree inContents linked
          rw [Option.isNone_iff_eq_none.mp unresolved] at resolved
          cases resolved
      · cases inContents
    · rw [Site.strippedContent_eq] at inContent
      obtain ⟨source, held, rfl⟩ := List.mem_map.mp inContent
      rw [String.toList_ofList] at linked
      refine Stripping.not_linked_stripAll (fun other listed => idsFree other ?_)
        (unnested source held) reported textNamed nameFree linked
      exact (List.mem_filter.mp listed).1
  · obtain ⟨other, listed, definition⟩ := List.mem_filterMap.mp inDefinitions
    obtain ⟨target, leads, rfl⟩ := Option.map_eq_some_iff.mp definition
    exact Markdown.not_linked_linkDefinition (idsFree other listed)
      (bracketFree_link free made leads) linked

/-- Without stray brackets, what is reported for a document is stripped from it. -/
theorem stripsReported_of_linkSafe (safe : catalog.LinkSafe)
    (languageFree : BracketFree options.language.toList)
    (extensionFree : BracketFree options.extension.toList)
    (made : site catalog options = .ok built) (written : (path, page) ∈ built.documents) :
    built.StripsReported catalog (!options.skipContents) path page := by
  intro warning warned name named nameFree holds
  obtain ⟨id, reported, rfl⟩ := List.mem_map.mp warned
  obtain ⟨referred, unresolved⟩ := List.mem_filter.mp reported
  obtain ⟨line, inside, found⟩ := holds
  have closed := Site.closed_of_site safe languageFree extensionFree made
  have idSafe := Site.linkSafe_references (closed.pages _ written) id referred
  have nonempty : id.text ≠ "" := fun empty =>
    idSafe.nonempty (String.toList_eq_nil_iff.mpr empty)
  obtain ⟨_, resolved⟩ := (closed.linksTo_content written line inside).allowed_of_link named
    nonempty nameFree idSafe.bracketFree found
  rw [Option.isNone_iff_eq_none.mp unresolved] at resolved
  cases resolved

/-- What is reported for a document is stripped from it: no line of the document holds a link to
it, unless the text of the link is empty or holds brackets. This is so for each document in whose
content no link to something that is reported has such links nested in its brackets, as long as
names and identifiers bring no brackets into the table of contents and the definitions. It is so
for all documents when nothing in the catalog holds brackets. -/
theorem reported_links_are_stripped {documents : List Document} {warnings : List Diagnostic}
    (generated : generate catalog options = .ok (documents, warnings))
    (free : catalog.NamesFree options.extension) :
    ∃ built, site catalog options = .ok built ∧
      built.output catalog (!options.skipContents) = (documents, warnings) ∧
      ∀ path page, (path, page) ∈ built.documents →
        ((∀ id ∈ (Site.references catalog (!options.skipContents) page).ids,
            BracketFree id.text.toList) →
          (∀ line ∈ page.content,
            Unnested (built.undocumented catalog (!options.skipContents) page) line.toList) →
          built.StripsReported catalog (!options.skipContents) path page) ∧
        (catalog.LinkSafe → BracketFree options.language.toList →
          built.StripsReported catalog (!options.skipContents) path page) := by
  obtain ⟨built, made, output⟩ := generate_eq_ok_iff.mp generated
  refine ⟨built, made, output, fun path page written => ⟨?_, ?_⟩⟩
  · exact stripsReported_of_unnested free made written
  · exact fun safe languageFree =>
      stripsReported_of_linkSafe safe languageFree free.extension made written

/-- The type that is not documented is reported for the class, and is stripped from its tuple. -/
theorem reported_links_of_shapes_are_stripped :
    shapes.NamesFree Options.default.extension ∧
    ∃ documents warnings, generate shapes .default = .ok (documents, warnings) ∧
      warnings.map (·.entity) = [⟨"type:Point"⟩] ∧
      ∃ built, site shapes .default = .ok built ∧
        ∀ path page, (path, page) ∈ built.documents →
          (∀ line ∈ page.content, Unnested (built.undocumented shapes true page) line.toList) ∧
          built.StripsReported shapes true path page := by
  have free : shapes.NamesFree Options.default.extension := by decide
  obtain ⟨documents, warnings, generated⟩ :=
    @exists_generated_of_isOk shapes .default (by decide +kernel)
  have reported : (generate shapes .default).toOption.map (·.2.map (·.entity)) =
      some [⟨"type:Point"⟩] := by decide +kernel
  rw [generated] at reported
  have plain : (site shapes .default).toOption.all fun built => built.documents.all fun entry =>
      decide (∀ id ∈ (Site.references shapes true entry.2).ids, BracketFree id.text.toList) &&
        decide (∀ line ∈ entry.2.content,
          Unnested (built.undocumented shapes true entry.2) line.toList) := by decide +kernel
  obtain ⟨built, made, _, stripped⟩ := reported_links_are_stripped generated free
  refine ⟨free, documents, warnings, generated, Option.some.inj reported, built, made,
    fun path page written => ?_⟩
  rw [made] at plain
  have entryPlain := List.all_eq_true.mp plain (path, page) written
  rw [Bool.and_eq_true, decide_eq_true_eq, decide_eq_true_eq] at entryPlain
  exact ⟨entryPlain.2, (stripped path page written).1 entryPlain.1 entryPlain.2⟩

/-- A type reference with a name and a target is shown as linked prose: its text with links
stands on a line of a page. -/
def ShowsReference (page : Page) (name : String) (target : EntityId) : Prop :=
  ∃ arguments, ∃ line ∈ page.content,
    ((TypeExpr.reference name (some target) arguments).linked .empty).1.toList <:+: line.toList

/-- A variable with a type that is named by what it is looked up with, and with a comment in
which one link is nested in another. -/
def indexed : Catalog where
  registry := {
    entities :=
      [{ id := ⟨"file:geometry"⟩, name := "geometry", parent := none
         location := ⟨"src/geometry.ts", 1, 1⟩, doc := none
         declaration := .sourceFile [⟨"variable:unit"⟩] },
       { id := ⟨"variable:unit"⟩, name := "unit", parent := none
         location := ⟨"src/geometry.ts", 3, 1⟩
         doc := some "An [ar[ea][type:Unit]][type:Area] to measure by."
         declaration := .variableBinding
           (some (.union
             [.reference "Shape['area']" (some ⟨"type:Area"⟩) [],
              .reference "area" (some ⟨"type:Area"⟩) [],
              .reference "Unit" (some ⟨"type:Unit"⟩) []])) .blockScoped }]
    entryPoints := [⟨"file:geometry"⟩]
    ids_nodup := by decide
    entryPoints_registered := by decide }
  references_registered := by decide
  lineages_end := by decide +kernel
  order := [⟨"file:geometry"⟩, ⟨"variable:unit"⟩]
  order_containersFirst :=
    .cons (by decide) (by decide) (.cons (by decide) (by decide) .nil)
  order_complete := by decide

/-- Links to a type are left although the type is reported: one by the brackets in its text, the
other by the link that is nested in it and stripped only later. -/
theorem reported_links_of_indexed_are_left :
    Options.default.fault? = none ∧
    ∃ documents warnings, generate indexed .default = .ok (documents, warnings) ∧
      ∃ built, site indexed .default = .ok built ∧
        built.output indexed true = (documents, warnings) ∧
        ∃ path page, (path, page) ∈ built.documents ∧
          (∃ warning ∈ (built.documentAt indexed true path page).2,
            warning.entity = ⟨"type:Area"⟩) ∧
          ∀ name ∈ ["Shape['area']", "area"],
            ShowsReference page name ⟨"type:Area"⟩ ∧
              built.HoldsLink indexed true path page name ⟨"type:Area"⟩ := by
  obtain ⟨documents, warnings, generated⟩ :=
    @exists_generated_of_isOk indexed .default (by decide +kernel)
  obtain ⟨built, made, output⟩ := generate_eq_ok_iff.mp generated
  have left : (site indexed .default).toOption.all fun built => built.documents.any fun entry =>
      decide (∃ warning ∈ (built.documentAt indexed true entry.1 entry.2).2,
        warning.entity = ⟨"type:Area"⟩) &&
      decide (∀ name ∈ ["Shape['area']", "area"],
        (∃ line ∈ entry.2.content,
          ((TypeExpr.reference name (some ⟨"type:Area"⟩) []).linked .empty).1.toList <:+:
            line.toList) ∧
        built.HoldsLink indexed true entry.1 entry.2 name ⟨"type:Area"⟩) := by
    decide +kernel
  rw [made] at left
  obtain ⟨⟨path, page⟩, written, holds⟩ := List.any_eq_true.mp left
  rw [Bool.and_eq_true, decide_eq_true_eq, decide_eq_true_eq] at holds
  refine ⟨by decide, documents, warnings, generated, built, made, output, path, page, written,
    holds.1, fun name listed => ?_⟩
  obtain ⟨shown, held⟩ := holds.2 name listed
  exact ⟨⟨[], shown⟩, held⟩

end Manual

end ApiManual
