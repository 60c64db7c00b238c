import ApiManual.Proofs.Manual.LinkTargets
import ApiManual.Proofs.Manual.PathsApart
import ApiManual.Proofs.Site.Accounting

/-!
# Documents of entities

Every entry point has a document of its own, and so does every class, interface or namespace
that a source file or namespace with a document of its own lists.  All of these are placed, but a
path holds only one document: the one that is placed there last.  So an entity keeps a document
exactly when it is placed last at one of its paths, and no document is lost when names are told
apart by what paths keep of them.
-/

namespace ApiManual

namespace Catalog

variable {catalog : Catalog} {extension path : String} {entity : Entity}

/-- An entity has a document of its own: it is an entry point, or a class, interface or
namespace that a source file or namespace with a document of its own lists. -/
inductive OwnsDocument (catalog : Catalog) : Entity → Prop where
  | entryPoint {id : EntityId} {entity : Entity}
      (listed : id ∈ catalog.registry.entryPoints) (found : catalog.entity? id = some entity) :
      OwnsDocument catalog entity
  | nested {container member : Entity} (owns : OwnsDocument catalog container)
      (module : container.kind.isModule) (held : member ∈ catalog.entities container.members)
      (own : member.kind.hasOwnDocument) : OwnsDocument catalog member

/-- The paths of all documents, each where it is used first. -/
def documentPaths (catalog : Catalog) (extension : String) : List String :=
  ((catalog.placements extension).map (·.1)).eraseDups

/-- The entity that is placed last at a path. -/
def holder? (catalog : Catalog) (extension path : String) : Option Entity :=
  (catalog.placements extension).reverse.lookup path

theorem placed_of_holder? (held : catalog.holder? extension path = some entity) :
    Placed catalog extension path entity :=
  mem_placements_iff.mp (Entries.mem_of_lookup_reverse held)

theorem exists_holder? (placed : Placed catalog extension path entity) :
    ∃ holder, catalog.holder? extension path = some holder := by
  have listed : (path, entity) ∈ (catalog.placements extension).reverse :=
    List.mem_reverse.mpr (mem_placements_iff.mpr placed)
  exact Option.isSome_iff_exists.mp
    (List.lookup_isSome_iff.mpr ⟨_, listed, beq_self_eq_true path⟩)

end Catalog

namespace Manual

variable {catalog : Catalog} {options : Options} {built : Site}

/-! ## Documents by path -/

theorem id_page (entity : Entity) : (page catalog options entity).id = entity.id := by
  rw [page, Page.alone, Page.id_render]
  rfl

/-- The entities with documents of their own are those that are placed. -/
theorem ownsDocument_iff_placed (made : site catalog options = .ok built) {entity : Entity} :
    catalog.OwnsDocument entity ↔ ∃ path, catalog.Placed options.extension path entity := by
  constructor
  · intro owns
    induction owns with
    | @entryPoint id entity listed found =>
        obtain ⟨other, path, otherFound, derived⟩ := (site_eq_replay made).1 id listed
        obtain rfl : other = entity := Option.some.inj (otherFound.symm.trans found)
        exact ⟨path, .entryPoint listed found derived⟩
    | nested _ module held own ih =>
        obtain ⟨path, placed⟩ := ih
        exact ⟨_, placed.nested (Page.mem_nested_iff.mpr ⟨module, held, own⟩)⟩
  · rintro ⟨path, placed⟩
    induction placed with
    | entryPoint listed found _ => exact .entryPoint listed found
    | nested _ inside ih =>
        obtain ⟨module, held, own⟩ := Page.mem_nested_iff.mp inside
        exact .nested ih module held own

/-- Every path holds the page of the entity that is placed there last. -/
theorem documents_eq_holders (made : site catalog options = .ok built) :
    built.documents = (catalog.documentPaths options.extension).filterMap fun path =>
      (catalog.holder? options.extension path).map fun entity =>
        (path, page catalog options entity) := by
  rw [documents_of_site made, Site.settled, trace, List.map_map]
  refine List.filterMap_congr fun path _ => ?_
  rw [← List.map_reverse, Entries.lookup_map, Option.map_map]
  rfl

/-- The page of an entity is at a path exactly when the entity is placed there last. -/
theorem mem_documents_iff_holder? (made : site catalog options = .ok built) {path : String}
    {entity : Entity} (owns : catalog.OwnsDocument entity) :
    (path, page catalog options entity) ∈ built.documents ↔
      catalog.holder? options.extension path = some entity := by
  rw [documents_eq_holders made, List.mem_filterMap]
  constructor
  · rintro ⟨other, _, held⟩
    obtain ⟨holder, found, same⟩ := Option.map_eq_some_iff.mp held
    obtain ⟨rfl, pageEq⟩ := Prod.mk.inj same
    -- A page names its entity, and of each name only one entity is placed.
    have sameId : holder.id = entity.id := by
      rw [← @id_page catalog options holder, pageEq, id_page]
    obtain ⟨_, placed⟩ := (ownsDocument_iff_placed made).mp owns
    have registered := (Catalog.placed_of_holder? found).entity?
    rw [sameId, placed.entity?] at registered
    rw [found, registered]
  · intro found
    refine ⟨path, List.mem_eraseDups.mpr (List.mem_map.mpr ⟨(path, entity), ?_, rfl⟩), ?_⟩
    · exact Catalog.mem_placements_iff.mpr (Catalog.placed_of_holder? found)
    · rw [found, Option.map_some]

/-! ## Documents of entities -/

/-- A document of an entity: it is written for the page of the entity at a path. -/
def IsDocumentOf (catalog : Catalog) (options : Options) (built : Site) (entity : Entity)
    (document : Document) : Prop :=
  ∃ path, (path, page catalog options entity) ∈ built.documents ∧
    document = (built.documentAt catalog (!options.skipContents) path
      (page catalog options entity)).1

/-- No document is lost: the documents are those of the entities with documents of their own,
every such entity has one, and those of different entities are at different locations. -/
structure NoneLost (catalog : Catalog) (options : Options) (built : Site)
    (documents : List Document) : Prop where
  owned : ∀ document ∈ documents, ∃ entity, catalog.OwnsDocument entity ∧
    IsDocumentOf catalog options built entity document
  kept : ∀ entity, catalog.OwnsDocument entity →
    ∃ document ∈ documents, IsDocumentOf catalog options built entity document
  apart : ∀ left right, catalog.OwnsDocument left → catalog.OwnsDocument right → left ≠ right →
    ∀ leftDocument rightDocument, IsDocumentOf catalog options built left leftDocument →
      IsDocumentOf catalog options built right rightDocument →
        leftDocument.location ≠ rightDocument.location

theorem exists_isDocumentOf_iff {entity : Entity} :
    (∃ document ∈ (built.output catalog (!options.skipContents)).1,
      IsDocumentOf catalog options built entity document) ↔
      ∃ path, (path, page catalog options entity) ∈ built.documents := by
  rw [Site.output_eq]
  constructor
  · rintro ⟨_, _, path, written, _⟩
    exact ⟨path, written⟩
  · rintro ⟨path, written⟩
    exact ⟨_, List.mem_map_of_mem written, path, written, rfl⟩

/-- Every document is that of an entity with a document of its own. -/
theorem exists_owner (made : site catalog options = .ok built) {document : Document}
    (output : document ∈ (built.output catalog (!options.skipContents)).1) :
    ∃ entity, catalog.OwnsDocument entity ∧
      IsDocumentOf catalog options built entity document := by
  rw [Site.output_eq] at output
  obtain ⟨⟨path, _⟩, written, rfl⟩ := List.mem_map.mp output
  have traced := written
  rw [documents_of_site made] at traced
  obtain ⟨_, entity, placed, same⟩ := mem_trace_iff.mp (Site.mem_of_mem_settled traced)
  obtain ⟨rfl, rfl⟩ := Prod.mk.inj same
  exact ⟨entity, (ownsDocument_iff_placed made).mpr ⟨_, placed⟩, _, written, rfl⟩

/-- Documents of different entities are at different locations when these are the paths. -/
theorem location_ne (made : site catalog options = .ok built)
    (plain : ∀ path ∈ built.paths, '\\' ∉ path.toList) {left right : Entity}
    {leftDocument rightDocument : Document} (leftOwns : catalog.OwnsDocument left)
    (rightOwns : catalog.OwnsDocument right) (differ : left ≠ right)
    (leftIs : IsDocumentOf catalog options built left leftDocument)
    (rightIs : IsDocumentOf catalog options built right rightDocument) :
    leftDocument.location ≠ rightDocument.location := by
  obtain ⟨leftPath, leftWritten, rfl⟩ := leftIs
  obtain ⟨rightPath, rightWritten, rfl⟩ := rightIs
  intro (same : DocumentPath.standardize leftPath = DocumentPath.standardize rightPath)
  rw [DocumentPath.standardize_of_not_mem (plain _ (List.mem_map_of_mem leftWritten)),
    DocumentPath.standardize_of_not_mem (plain _ (List.mem_map_of_mem rightWritten))] at same
  subst same
  have leftHeld := (mem_documents_iff_holder? made leftOwns).mp leftWritten
  have rightHeld := (mem_documents_iff_holder? made rightOwns).mp rightWritten
  exact differ (Option.some.inj (leftHeld.symm.trans rightHeld))

/-- With paths that are written as they are, no document is lost exactly when every entity with
a document of its own is placed last somewhere. -/
theorem noneLost_iff (made : site catalog options = .ok built)
    (plain : ∀ path ∈ built.paths, '\\' ∉ path.toList) :
    NoneLost catalog options built (built.output catalog (!options.skipContents)).1 ↔
      ∀ entity, catalog.OwnsDocument entity →
        ∃ path, catalog.holder? options.extension path = some entity := by
  constructor
  · intro noneLost entity owns
    obtain ⟨path, written⟩ := exists_isDocumentOf_iff.mp (noneLost.kept entity owns)
    exact ⟨path, (mem_documents_iff_holder? made owns).mp written⟩
  · intro held
    refine ⟨fun _ => exists_owner made, fun entity owns => ?_,
      fun _ _ leftOwns rightOwns differ _ _ => location_ne made plain leftOwns rightOwns differ⟩
    obtain ⟨path, last⟩ := held entity owns
    exact exists_isDocumentOf_iff.mpr ⟨path, (mem_documents_iff_holder? made owns).mpr last⟩

/-- No document is lost when what paths keep of names tells entities apart. -/
theorem noneLost_of_namesApart (made : site catalog options = .ok built)
    (valid : options.fault? = none) (apart : catalog.NamesApart options.extension) :
    NoneLost catalog options built (built.output catalog (!options.skipContents)).1 := by
  have noSlash : '/' ∉ options.extension.toList := Options.not_mem_extension valid (by decide)
  have noDot : '.' ∉ options.extension.toList := Options.not_mem_extension valid (by decide)
  have noBackslash : '\\' ∉ options.extension.toList :=
    Options.not_mem_extension valid (by decide)
  refine (noneLost_iff made ?_).mpr ?_
  · intro path used
    obtain ⟨⟨_, page⟩, written, rfl⟩ := List.mem_map.mp used
    rw [documents_of_site made] at written
    obtain ⟨_, entity, placed, same⟩ := mem_trace_iff.mp (Site.mem_of_mem_settled written)
    cases same
    exact apart.backslash_not_mem noSlash noDot noBackslash placed
  · intro entity owns
    obtain ⟨path, placed⟩ := (ownsDocument_iff_placed made).mp owns
    obtain ⟨holder, last⟩ := Catalog.exists_holder? placed
    have same : entity = holder :=
      apart.eq_of_placed noSlash noDot placed (Catalog.placed_of_holder? last)
    exact ⟨path, same ▸ last⟩

/-- The documents of a manual are those of the entities that are placed last at the paths, in
the order in which the paths are used first. So an entity with a document of its own keeps it
exactly when it is placed last at one of its paths, and when all entities do, and paths are
written as they are, no document is lost. That is so when the options are valid and what paths
keep of names tells entities apart. -/
theorem documents_kept_iff_placed_last {documents : List Document} {warnings : List Diagnostic}
    (generated : generate catalog options = .ok (documents, warnings)) :
    ∃ built, site catalog options = .ok built ∧
      documents = (catalog.documentPaths options.extension).filterMap (fun path =>
        (catalog.holder? options.extension path).map fun entity =>
          (built.documentAt catalog (!options.skipContents) path
            (page catalog options entity)).1) ∧
      (∀ document ∈ documents, ∃ entity, catalog.OwnsDocument entity ∧
        IsDocumentOf catalog options built entity document) ∧
      (∀ entity, catalog.OwnsDocument entity →
        ((∃ document ∈ documents, IsDocumentOf catalog options built entity document) ↔
          ∃ path, catalog.holder? options.extension path = some entity)) ∧
      ((∀ path ∈ built.paths, '\\' ∉ path.toList) →
        (NoneLost catalog options built documents ↔
          ∀ entity, catalog.OwnsDocument entity →
            ∃ path, catalog.holder? options.extension path = some entity)) ∧
      (options.fault? = none → catalog.NamesApart options.extension →
        NoneLost catalog options built documents) := by
  obtain ⟨built, made, output⟩ := generate_eq_ok_iff.mp generated
  have documentsEq : (built.output catalog (!options.skipContents)).1 = documents :=
    congrArg Prod.fst output
  subst documentsEq
  refine ⟨built, made, ?_, fun _ => exists_owner made, fun entity owns => ?_,
    noneLost_iff made, noneLost_of_namesApart made⟩
  · rw [Site.output_eq, documents_eq_holders made, List.map_filterMap]
    simp only [Option.map_map]
    rfl
  · rw [exists_isDocumentOf_iff]
    exact exists_congr fun path => mem_documents_iff_holder? made owns

/-- The source file and the class of the shapes are told apart, and both keep their
documents. -/
theorem documents_of_shapes_are_kept :
    ∃ documents warnings, generate shapes .default = .ok (documents, warnings) ∧
      Options.default.fault? = none ∧ shapes.NamesApart Options.default.extension ∧
      ∃ built, site shapes .default = .ok built ∧ NoneLost shapes .default built documents := by
  have apart : shapes.NamesApart Options.default.extension := {
    entries_step := by decide +kernel
    entries_apart := by decide +kernel
    members_plain := by decide +kernel
    members_step := by decide +kernel
    members_apart := by decide +kernel }
  have valid : Options.default.fault? = none := by decide +kernel
  obtain ⟨documents, warnings, generated⟩ :=
    @exists_generated_of_isOk shapes .default (by decide +kernel)
  obtain ⟨built, made, _, _, _, _, kept⟩ := documents_kept_iff_placed_last generated
  exact ⟨documents, warnings, generated, valid, apart, built, made, kept valid apart⟩

/-- An empty source file in a directory of its own. -/
def index (directory : String) : Entity where
  id := ⟨"file:" ++ directory⟩
  name := directory
  parent := none
  location := ⟨"src/" ++ directory ++ "/index.ts", 1, 1⟩
  doc := none
  declaration := .sourceFile []

/-- Two source files that paths do not tell apart. -/
def twins : Catalog where
  registry := {
    entities := [index "a", index "b"]
    entryPoints := [⟨"file:a"⟩, ⟨"file:b"⟩]
    ids_nodup := by decide
    entryPoints_registered := by decide }
  references_registered := by decide
  lineages_end := by decide +kernel
  order := [⟨"file:a"⟩, ⟨"file:b"⟩]
  order_containersFirst :=
    .cons (by decide) (by decide) (.cons (by decide) (by decide) .nil)
  order_complete := by decide

/-- The document of the first source file is lost. -/
theorem document_of_twin_is_lost :
    ∃ documents warnings, generate twins .default = .ok (documents, warnings) ∧
      Options.default.fault? = none ∧
      ∃ built, site twins .default = .ok built ∧
        ¬ NoneLost twins .default built documents := by
  obtain ⟨documents, warnings, generated⟩ :=
    @exists_generated_of_isOk twins .default (by decide +kernel)
  obtain ⟨built, made, _⟩ := generate_eq_ok_iff.mp generated
  refine ⟨documents, warnings, generated, by decide +kernel, built, made, fun noneLost => ?_⟩
  have owns : twins.OwnsDocument (index "a") :=
    .entryPoint List.mem_cons_self rfl
  obtain ⟨_, _, path, written, _⟩ := noneLost.kept _ owns
  have idsEq : (site twins .default).toOption.map (·.documents.map (·.2.id)) =
      some [⟨"file:b"⟩] := by decide +kernel
  rw [made] at idsEq
  have ids : built.documents.map (·.2.id) = [⟨"file:b"⟩] := Option.some.inj idsEq
  have lost : (index "a").id ∉ built.documents.map (·.2.id) := by
    rw [ids]
    decide
  exact lost (List.mem_map.mpr ⟨_, written, id_page _⟩)

end Manual

end ApiManual
