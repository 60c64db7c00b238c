import ApiManual.Proofs.Site.Growth
import ApiManual.Proofs.Site.Walking

/-!
# Where the links of a manual lead

Every link of a document is made for the path of another document of the site,
but a reader follows it from where the document is written, and only up to the
first `#`.  So a link arrives exactly when these three readings of paths agree.
They do on paths without `#`, backslashes and `..`, which is what source files and
names usually give, and they can fail on any other: a class whose name holds a
backslash is written in a directory that its links do not count.
-/

namespace ApiManual

open DocumentPath (landing standardize LeadsTo Plain)

namespace Site

variable {catalog : Catalog} {options : Options} {site : Site} {showContents : Bool}

/-- Every anchor is a heading on a document of the site. -/
def Anchored (site : Site) : Prop :=
  ∀ entry ∈ site.anchors, ∃ path ∈ site.paths, ∃ title, entry.2 = target path title

theorem anchored_invariant (catalog : Catalog) (extension : String) :
    Invariant catalog extension (fun _ _ => True) Anchored where
  empty := by simp [Anchored, Site.empty]
  descend := fun _ _ _ _ _ => trivial
  commit := by
    intro site path page anchored _ entry member
    rcases mem_anchors_commit member with ⟨heading, _, rfl⟩ | old
    · exact ⟨path, mem_paths_commit.mpr (.inl rfl), heading.title, rfl⟩
    · obtain ⟨other, placed, title, equal⟩ := anchored entry old
      exact ⟨other, mem_paths_commit.mpr (.inr placed), title, equal⟩

theorem anchored_of_site (built : Manual.site catalog options = .ok site) :
    site.Anchored :=
  (anchored_invariant catalog options.extension).of_site
    (fun _ _ _ _ _ _ => trivial) built

/-- A document refers to another one: an entity that it links to is documented
there. -/
def Refers (catalog : Catalog) (showContents : Bool) (site : Site)
    (path goal : String) : Prop :=
  ∃ page, (path, page) ∈ site.documents ∧
    ∃ id ∈ (references catalog showContents page).ids,
      ∃ title, site.resolve? catalog id = some (target goal title)

/-- Every link that is defined at the end of a document leads to a document. -/
def LinksArrive (catalog : Catalog) (showContents : Bool) (site : Site)
    (documents : List Document) : Prop :=
  ∀ entry ∈ site.documents, ∀ id ∈ (references catalog showContents entry.2).ids,
    ∀ link ∈ site.link? catalog entry.1 id,
      ∃ document ∈ documents, LeadsTo (standardize entry.1) link document.location

instance (catalog : Catalog) (showContents : Bool) (site : Site)
    (documents : List Document) :
    Decidable (LinksArrive catalog showContents site documents) :=
  List.decidableBAll _ site.documents

/-- A link is made for the path of the document to which it refers. -/
theorem link?_eq_some_iff {path link : String} {id : EntityId}
    (anchored : site.Anchored) :
    site.link? catalog path id = some link ↔
      ∃ goal ∈ site.paths, ∃ title,
        site.resolve? catalog id = some (target goal title) ∧
          link = DocumentPath.relative (DocumentPath.directory path)
            (goal ++ "#" ++ slug title) := by
  rw [link?, Option.map_eq_some_iff]
  constructor
  · rintro ⟨found, resolved, rfl⟩
    obtain ⟨anchoredId, member⟩ := mem_anchors_of_resolve? resolved
    obtain ⟨goal, placed, title, rfl⟩ := anchored _ member
    exact ⟨goal, placed, title, resolved, rfl⟩
  · rintro ⟨goal, _, title, resolved, rfl⟩
    exact ⟨target goal title, resolved, rfl⟩

/-- Links arrive exactly when the way from each document to the path of each
document it refers to lands where a document is written. -/
theorem linksArrive_iff_landing {documents : List Document} (anchored : site.Anchored) :
    LinksArrive catalog showContents site documents ↔
      ∀ path goal, Refers catalog showContents site path goal →
        ∃ document ∈ documents,
          landing path goal = Place.output.follow document.location.toList := by
  constructor
  · rintro arrive path goal ⟨page, placed, id, used, title, resolved⟩
    have linked : site.link? catalog path id =
        some (DocumentPath.relative (DocumentPath.directory path)
          (goal ++ "#" ++ slug title)) := by
      rw [link?, resolved]
      rfl
    obtain ⟨document, written, leads⟩ := arrive (path, page) placed id used _ linked
    exact ⟨document, written, DocumentPath.leadsTo_iff_landing.mp leads⟩
  · rintro lands ⟨path, page⟩ placed id used link linked
    obtain ⟨goal, _, title, resolved, rfl⟩ := (link?_eq_some_iff anchored).mp linked
    obtain ⟨document, written, landed⟩ :=
      lands path goal ⟨page, placed, id, used, title, resolved⟩
    exact ⟨document, written, DocumentPath.leadsTo_iff_landing.mpr landed⟩

theorem exists_location_eq {path : String} (placed : path ∈ site.paths) :
    ∃ document ∈ (site.output catalog showContents).1,
      document.location = standardize path := by
  obtain ⟨⟨_, page⟩, member, rfl⟩ := List.mem_map.mp placed
  refine ⟨(site.documentAt catalog showContents _ page).1, ?_, rfl⟩
  simp only [output, List.mem_map]
  exact ⟨_, ⟨_, member, rfl⟩, rfl⟩

/-- Links between documents at plain paths arrive. -/
theorem linksArrive_of_plain (anchored : site.Anchored)
    (plain : ∀ path ∈ site.paths, Plain path) :
    LinksArrive catalog showContents site (site.output catalog showContents).1 := by
  rintro ⟨path, page⟩ placed id _ link linked
  obtain ⟨goal, goalPlaced, title, _, rfl⟩ := (link?_eq_some_iff anchored).mp linked
  obtain ⟨document, written, location⟩ := exists_location_eq goalPlaced
  refine ⟨document, written, DocumentPath.leadsTo_iff_landing.mpr ?_⟩
  rw [location]
  exact DocumentPath.landing_of_plain_of_plain
    (plain path (List.mem_map_of_mem placed)) (plain goal goalPlaced)

end Site

/-! ## Manuals -/

namespace Manual

/-- The links of a manual arrive exactly when the way from each document to the path
of each document it refers to lands where a document is written. They do when all
paths are plain. From a plain path the way to a document whose location does not
lead up lands there exactly when its path is plain, too. -/
theorem links_arrive_iff {catalog : Catalog} {options : Options}
    {documents : List Document} {warnings : List Diagnostic}
    (generated : generate catalog options = .ok (documents, warnings)) :
    ∃ built, site catalog options = .ok built ∧
      built.output catalog (!options.skipContents) = (documents, warnings) ∧
      (built.LinksArrive catalog (!options.skipContents) documents ↔
        ∀ path goal, built.Refers catalog (!options.skipContents) path goal →
          ∃ document ∈ documents,
            landing path goal = Place.output.follow document.location.toList) ∧
      ((∀ path ∈ built.paths, Plain path) →
        built.LinksArrive catalog (!options.skipContents) documents) ∧
      ∀ path ∈ built.paths, Plain path → ∀ goal ∈ built.paths,
        ['.', '.'] ∉ DocumentPath.steps (standardize goal).toList →
        (landing path goal = Place.output.follow (standardize goal).toList ↔
          Plain goal) := by
  obtain ⟨built, builtEq, output⟩ := generate_eq_ok_iff.mp generated
  have anchored := Site.anchored_of_site builtEq
  have documentsEq : (built.output catalog (!options.skipContents)).1 = documents := by
    rw [output]
  refine ⟨built, builtEq, output, Site.linksArrive_iff_landing anchored, ?_, ?_⟩
  · intro plain
    rw [← documentsEq]
    exact Site.linksArrive_of_plain anchored plain
  · intro path _ plain goal _ noUp
    exact DocumentPath.landing_eq_follow_standardize_iff plain noUp

/-- A source file with a class that has the given name, and a function. -/
def geometry (className : String) : List Entity :=
  [{ id := ⟨"file:geometry"⟩, name := "geometry", parent := none
     location := ⟨"src/geometry.ts", 1, 1⟩, doc := none
     declaration := .sourceFile [⟨"class:Shape"⟩, ⟨"function:area"⟩] },
   { id := ⟨"class:Shape"⟩, name := className, parent := none
     location := ⟨"src/geometry.ts", 3, 1⟩, doc := some "A shape in the plane."
     declaration := .classType [] none [] [⟨"property:measures"⟩] false },
   { id := ⟨"property:measures"⟩, name := "measures", parent := none
     location := ⟨"src/geometry.ts", 4, 3⟩, doc := none
     declaration := .property
       (some (.array (.tuple
         [.reference "area" (some ⟨"function:area"⟩) [],
          .reference "Point" (some ⟨"type:Point"⟩) []]))) false true false },
   { id := ⟨"function:area"⟩, name := "area", parent := none
     location := ⟨"src/geometry.ts", 9, 1⟩, doc := none
     declaration := .function [] []
       (some (.reference "Shape" (some ⟨"class:Shape"⟩) [])) false }]

/-- The source file alone, with a class under a plain name. -/
def shapes : Catalog where
  registry := {
    entities := geometry "Shape"
    entryPoints := [⟨"file:geometry"⟩]
    ids_nodup := by decide
    entryPoints_registered := by decide }
  references_registered := by decide
  lineages_end := by decide +kernel
  order := [⟨"file:geometry"⟩, ⟨"class:Shape"⟩, ⟨"property:measures"⟩, ⟨"function:area"⟩]
  order_containersFirst :=
    .cons (by decide) (by decide) (.cons (by decide) (by decide)
      (.cons (by decide) (by decide) (.cons (by decide) (by decide) .nil)))
  order_complete := by decide

/-- The same with a backslash in the name of the class. -/
def flatShapes : Catalog where
  registry := {
    entities := geometry "Flat\\Shape"
    entryPoints := [⟨"file:geometry"⟩]
    ids_nodup := by decide
    entryPoints_registered := by decide }
  references_registered := by decide
  lineages_end := by decide +kernel
  order := [⟨"file:geometry"⟩, ⟨"class:Shape"⟩, ⟨"property:measures"⟩, ⟨"function:area"⟩]
  order_containersFirst :=
    .cons (by decide) (by decide) (.cons (by decide) (by decide)
      (.cons (by decide) (by decide) (.cons (by decide) (by decide) .nil)))
  order_complete := by decide

theorem exists_generated_of_isOk {catalog : Catalog} {options : Options}
    (ok : (generate catalog options).isOk = true) :
    ∃ documents warnings, generate catalog options = .ok (documents, warnings) := by
  cases generated : generate catalog options with
  | error error =>
      rw [generated] at ok
      cases ok
  | ok result => exact ⟨result.1, result.2, rfl⟩

/-- All links arrive in the manual of the class under a plain name. -/
theorem links_of_shapes_arrive :
    ∃ documents warnings, generate shapes .default = .ok (documents, warnings) ∧
      ∃ built, site shapes .default = .ok built ∧
        built.LinksArrive shapes true documents := by
  obtain ⟨documents, warnings, generated⟩ :=
    @exists_generated_of_isOk shapes .default (by decide +kernel)
  obtain ⟨built, builtEq, _, _, arrive, _⟩ := links_arrive_iff generated
  refine ⟨documents, warnings, generated, built, builtEq, arrive ?_⟩
  have pathsEq : (site shapes .default).toOption.map (·.paths) =
      some ["geometry.md", "geometry/shape.md"] := by decide +kernel
  rw [builtEq] at pathsEq
  have paths : built.paths = ["geometry.md", "geometry/shape.md"] := Option.some.inj pathsEq
  rw [paths, List.forall_mem_cons, List.forall_mem_singleton]
  exact ⟨⟨by decide, by decide, by decide⟩, ⟨by decide, by decide, by decide⟩⟩

/-- A backslash in the name of the class misleads the links on its page. -/
theorem links_of_flatShapes_do_not_arrive :
    ∃ documents warnings, generate flatShapes .default = .ok (documents, warnings) ∧
      ∃ built, site flatShapes .default = .ok built ∧
        ¬ built.LinksArrive flatShapes true documents := by
  have misled : (site flatShapes .default).toOption.all fun built =>
      !decide (built.LinksArrive flatShapes true (built.output flatShapes true).1) := by
    decide +kernel
  obtain ⟨documents, warnings, generated⟩ :=
    @exists_generated_of_isOk flatShapes .default (by decide +kernel)
  obtain ⟨built, builtEq, output⟩ := generate_eq_ok_iff.mp generated
  refine ⟨documents, warnings, generated, built, builtEq, ?_⟩
  have documentsEq : (built.output flatShapes true).1 = documents := congrArg (·.1) output
  rw [builtEq] at misled
  rw [← documentsEq]
  simpa [Except.toOption] using misled

end Manual

end ApiManual
