import ApiManual.Proofs.FileTree.Writing
import ApiManual.Proofs.Manual.LinkTargets
import ApiManual.Proofs.Manual.PathsApart
import ApiManual.Proofs.Site.MemberLocations
import ApiManual.Run

/-!
# Where documents are written

The documents of a manual are written below one directory as long as their locations stay below
it.  Those of entry points always do.  That of a member follows the names of its containers and
its own, and a name can lead up: a namespace that is named for a module two directories above
takes its document out of the directory.
-/

namespace ApiManual

open DocumentPath (Descends Fits IsExtension LeadsUp StaysBelow fileOf home sourceStem standardize)

theorem Options.isExtension {options : Options} (valid : options.fault? = none) :
    IsExtension options.extension where
  nonempty := by
    intro none
    rw [String.toList_eq_nil_iff] at none
    simp [fault?, none] at valid
  unmarked := fun _ mark => not_mem_extension valid mark

namespace Plan

theorem startOf_append {front : List Char} (some : front ≠ []) (rest : List Char) :
    Place.startOf (front ++ rest) = Place.startOf front := by
  obtain ⟨first, later, rfl⟩ := List.exists_cons_of_ne_nil some
  by_cases root : first = '/'
  · rw [root]
    rfl
  · simp [Place.startOf, root]

/-- A path behind a slash is followed from where the path before it leads. -/
theorem follow_append_slash (start : Place) (front rest : List Char) :
    start.follow (front ++ '/' :: rest) = (start.follow front).follow rest := by
  rw [Place.follow, Text.pieces_append_cons, Place.walk_append]
  rfl

/-- A relative location that is joined to a directory is followed from where the directory
leads. -/
theorem ofPath_pathIn {directory location : String} (relative : location.toList.head? ≠ some '/') :
    Place.ofPath (pathIn directory location) =
      (Place.ofPath directory).follow location.toList := by
  unfold pathIn
  split
  · next rest begins => exact absurd (by rw [begins]; rfl) relative
  · next notRoot =>
      have startsHere : Place.startOf location.toList = Place.output := by
        unfold Place.startOf
        split
        · next rest begins => exact absurd begins (notRoot rest)
        · rfl
      split
      · next none =>
          have empty : directory.toList = [] := List.getLast?_eq_none_iff.mp none
          rw [Place.ofPath, Place.ofPath, String.toList_append, empty, List.nil_append, startsHere]
          rfl
      · next slash =>
          obtain ⟨front, directoryEq⟩ := List.getLast?_eq_some_iff.mp slash
          have whole : front ++ ['/'] ++ location.toList = front ++ '/' :: location.toList := by
            simp
          rw [Place.ofPath, Place.ofPath, String.toList_append, directoryEq,
            startOf_append (by simp), whole, follow_append_slash, follow_append_slash]
          rfl
      · next notEmpty _ =>
          have nonempty : directory.toList ≠ [] := fun empty => notEmpty (by rw [empty]; rfl)
          have whole : (directory ++ "/" ++ location).toList =
              directory.toList ++ '/' :: location.toList := by simp
          rw [Place.ofPath, Place.ofPath, whole, startOf_append nonempty, follow_append_slash]

end Plan

namespace Manual

variable {catalog : Catalog} {options : Options} {built : Site}

/-- The locations of the documents are the standard forms of these paths. -/
theorem forall_location_iff {documents : List Document} {warnings : List Diagnostic}
    (generated : generate catalog options = .ok (documents, warnings)) (holds : String → Prop) :
    (∀ document ∈ documents, holds document.location) ↔
      ∀ path entity, catalog.Placed options.extension path entity →
        holds (standardize path) := by
  obtain ⟨built, made, output⟩ := generate_eq_ok_iff.mp generated
  have documentsEq : (built.output catalog (!options.skipContents)).1 = documents := by
    rw [output]
  rw [← documentsEq]
  constructor
  · intro every path entity placed
    obtain ⟨document, written, location⟩ := Site.exists_location_eq
      ((mem_paths_iff made).mpr ⟨entity, placed⟩)
    exact location ▸ every document written
  · intro every document written
    obtain ⟨_, outputs, rfl⟩ := List.mem_map.mp written
    obtain ⟨⟨path, page⟩, held, rfl⟩ := List.mem_map.mp outputs
    obtain ⟨entity, placed⟩ := (mem_paths_iff made).mp (List.mem_map_of_mem held)
    exact every path entity placed

/-- When no name leads up and no source file is named for a directory, all directories for
members lead down. -/
theorem descends_of_placed (valid : options.fault? = none)
    (named : ∀ id ∈ catalog.registry.entryPoints, ∀ entity, catalog.entity? id = some entity →
      sourceStem entity.location.fileName ∉ [['.'], ['.', '.']])
    (down : ∀ path container member, catalog.Placed options.extension path container →
      member ∈ Page.nested catalog container → ¬ LeadsUp member.name.toList)
    {path : String} {entity : Entity} (placed : catalog.Placed options.extension path entity) :
    Descends (home path) := by
  induction placed with
  | entryPoint listed found derived =>
      exact .entry (Options.isExtension valid) derived (named _ listed _ found)
  | nested outer inside ih =>
      exact ih.member (Options.isExtension valid) (down _ _ _ outer inside)

/-- Documents of entry points stay below, so it depends on the nested members. -/
theorem forall_staysBelow_iff {documents : List Document} {warnings : List Diagnostic}
    (valid : options.fault? = none)
    (generated : generate catalog options = .ok (documents, warnings)) :
    (∀ document ∈ documents, StaysBelow document.location) ↔
      ∀ path container member, catalog.Placed options.extension path container →
        member ∈ Page.nested catalog container →
        Fits (home path) (fileOf member.name options.extension) := by
  have extension := Options.isExtension valid
  rw [forall_location_iff generated]
  constructor
  · intro every path container member placed inside
    exact extension.staysBelow_member_iff.mp (every _ _ (placed.nested inside))
  · intro fits path entity placed
    cases placed with
    | entryPoint listed found derived => exact extension.staysBelow_entry derived
    | nested outer inside =>
        exact extension.staysBelow_member_iff.mpr (fits _ _ _ outer inside)

/-- Writing documents that stay below a directory leaves what is outside it as it was. -/
theorem textAt?_writeAll_of_outside {documents : List Document} {warnings : List Diagnostic}
    (below : ∀ document ∈ documents, StaysBelow document.location) {directory : String}
    {tree : FileTree} {place : Place} (outside : ¬ place.IsBelow (Place.ofPath directory)) :
    (tree.writeAll (Plan.writing directory documents warnings).writes).1.textAt? place =
      tree.textAt? place := by
  refine FileTree.textAt?_writeAll fun write planned same => outside ?_
  obtain ⟨document, written, rfl⟩ := List.mem_map.mp planned
  have stays := DocumentPath.staysBelow_iff.mp (below document written)
  rw [same, Plan.ofPath_pathIn stays.1, Place.follow_eq_walk_steps]
  exact Place.isBelow_walk stays.2 _

/-- The documents of a manual stay below the directory that they are joined to exactly when the
file of each nested member fits in the directory for the members of its container.  They do when
no source file is named for a directory and no name of a nested member leads up between its
separators.  When they do, writing the documents leaves every file outside the directory as it
was. -/
theorem locations_stay_below_iff {documents : List Document} {warnings : List Diagnostic}
    (valid : options.fault? = none)
    (generated : generate catalog options = .ok (documents, warnings)) :
    ((∀ document ∈ documents, StaysBelow document.location) ↔
      ∀ path container member, catalog.Placed options.extension path container →
        member ∈ Page.nested catalog container →
        Fits (home path) (fileOf member.name options.extension)) ∧
    ((∀ id ∈ catalog.registry.entryPoints, ∀ entity, catalog.entity? id = some entity →
        sourceStem entity.location.fileName ∉ [['.'], ['.', '.']]) →
      (∀ path container member, catalog.Placed options.extension path container →
        member ∈ Page.nested catalog container → ¬ LeadsUp member.name.toList) →
      ∀ document ∈ documents, StaysBelow document.location) ∧
    ((∀ document ∈ documents, StaysBelow document.location) →
      ∀ directory (tree : FileTree) place, ¬ place.IsBelow (Place.ofPath directory) →
        (tree.writeAll (Plan.writing directory documents warnings).writes).1.textAt? place =
          tree.textAt? place) := by
  have exact := forall_staysBelow_iff valid generated
  refine ⟨exact, fun named down => exact.mpr fun path container member placed inside => ?_,
    fun below directory tree place => textAt?_writeAll_of_outside below⟩
  exact (descends_of_placed valid named down placed).fits (Options.isExtension valid)
    (down path container member placed inside)

/-- The names of the shapes do not lead up, and so their documents stay below. -/
theorem locations_of_shapes_stay_below :
    Options.default.fault? = none ∧
    ∃ documents warnings, generate shapes .default = .ok (documents, warnings) ∧
      (∀ document ∈ documents, StaysBelow document.location) ∧
      ∀ directory (tree : FileTree) place, ¬ place.IsBelow (Place.ofPath directory) →
        (tree.writeAll (Plan.writing directory documents warnings).writes).1.textAt? place =
          tree.textAt? place := by
  obtain ⟨documents, warnings, generated⟩ :=
    @exists_generated_of_isOk shapes .default (by decide +kernel)
  have valid : Options.default.fault? = none := by decide
  obtain ⟨_, plain, writes⟩ := locations_stay_below_iff valid generated
  have below : ∀ document ∈ documents, StaysBelow document.location := by
    refine plain (fun id listed entity found => ?_) fun path container member placed inside => ?_
    · have entries : ∀ entity ∈ shapes.entities shapes.registry.entryPoints,
          sourceStem entity.location.fileName ∉ [['.'], ['.', '.']] := by decide
      exact entries entity (List.mem_filterMap.mpr ⟨id, listed, found⟩)
    · have names : ∀ container ∈ shapes.registry.entities,
          ∀ member ∈ Page.nested shapes container, ¬ LeadsUp member.name.toList := by decide
      exact names container (Registry.get?_eq_some_iff.mp placed.entity?).1 member inside
  exact ⟨valid, documents, warnings, generated, below, writes below⟩

/-- A source file that adds to a module two directories above. -/
def augmented : Catalog where
  registry := {
    entities :=
      [{ id := ⟨"file:geometry"⟩, name := "geometry", parent := none
         location := ⟨"src/geometry.ts", 1, 1⟩, doc := none
         declaration := .sourceFile [⟨"namespace:core"⟩] },
       { id := ⟨"namespace:core"⟩, name := "../../core", parent := none
         location := ⟨"src/geometry.ts", 3, 1⟩, doc := none
         declaration := .nameSpace [] }]
    entryPoints := [⟨"file:geometry"⟩]
    ids_nodup := by decide
    entryPoints_registered := by decide }
  references_registered := by decide
  lineages_end := by decide +kernel
  order := [⟨"file:geometry"⟩, ⟨"namespace:core"⟩]
  order_containersFirst :=
    .cons (by decide) (by decide) (.cons (by decide) (by decide) .nil)
  order_complete := by decide

/-- The document of the namespace is written outside the directory that is written to. -/
theorem location_of_augmented_leads_above :
    Options.default.fault? = none ∧
    ∃ documents warnings, generate augmented .default = .ok (documents, warnings) ∧
      (∃ document ∈ documents, document.location = "geometry/../../core.md" ∧
        ¬ StaysBelow document.location) ∧
      ∃ place text, ¬ place.IsBelow (Place.ofPath "site") ∧
        (FileTree.empty.writeAll (Plan.writing "site" documents warnings).writes).1.textAt? place =
          some text := by
  obtain ⟨documents, warnings, generated⟩ :=
    @exists_generated_of_isOk augmented .default (by decide +kernel)
  have locations : (generate augmented .default).toOption.map (·.1.map (·.location)) =
      some ["geometry.md", "geometry/../../core.md"] := by decide +kernel
  have outside : (generate augmented .default).toOption.all fun result =>
      ((FileTree.empty.writeAll (Plan.writing "site" result.1 result.2).writes).1.textAt?
        ⟨.working 0, ["core.md".toList]⟩).isSome := by decide +kernel
  rw [generated] at locations outside
  have locationsEq : documents.map (·.location) = ["geometry.md", "geometry/../../core.md"] :=
    Option.some.inj locations
  obtain ⟨document, written, location⟩ : ∃ document ∈ documents,
      document.location = "geometry/../../core.md" := by
    refine List.mem_map.mp ?_
    rw [locationsEq]
    decide
  obtain ⟨text, textEq⟩ := Option.isSome_iff_exists.mp outside
  refine ⟨by decide, documents, warnings, generated, ⟨document, written, location, ?_⟩,
    _, text, ?_, textEq⟩
  · rw [location]
    decide
  · decide

end Manual

end ApiManual
