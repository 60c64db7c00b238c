import ApiManual.Manual

/-!
# How sites grow

A page with members is added one page at a time: its headings are indexed and
the page itself is put at its path, which is one *commit*, and then the members
follow in a directory below it.  What commits preserve is therefore preserved by
adding whole pages, also when a member is not registered and the rest is left
out, and so it holds of the site of a manual.

What a page and its path have to satisfy for a commit is called fitting.  It is
handed down from a page to its members.
-/

namespace ApiManual

mutual

/-- A heading and all those below it, each before the ones below it. -/
def Heading.listing : Heading → List Heading
  | ⟨title, id, members⟩ => ⟨title, id, members⟩ :: Heading.listings members

/-- Headings and all those below them, in order. -/
def Heading.listings : List Heading → List Heading
  | [] => []
  | heading :: rest => heading.listing ++ Heading.listings rest

end

namespace Site

variable {catalog : Catalog} {extension : String} {site : Site}

/-! ## Commits -/

/-- The site after the headings of a page have been indexed and the page, without
its members, has been put at its path. -/
def commit (site : Site) (path : String) (page : Page) : Site :=
  (indexHeadings path site page.headings).place path { page with members := [] }

theorem add_eq (path : String) (page : Page) :
    add catalog extension path site page =
      addMembers catalog extension path (site.commit path page) page.members := by
  cases page
  rfl

mutual

theorem indexHeading_eq_foldl (path : String) (site : Site) :
    (heading : Heading) → indexHeading path site heading =
      heading.listing.foldl
        (fun site heading => site.addAnchor heading.id (target path heading.title)) site
  | ⟨title, id, members⟩ => by
      rw [indexHeading, Heading.listing, List.foldl_cons]
      exact indexHeadings_eq_foldl path _ members

/-- Indexing headings is adding an anchor for each heading of the listing. -/
theorem indexHeadings_eq_foldl (path : String) (site : Site) :
    (headings : List Heading) → indexHeadings path site headings =
      (Heading.listings headings).foldl
        (fun site heading => site.addAnchor heading.id (target path heading.title)) site
  | [] => rfl
  | heading :: rest => by
      rw [indexHeadings, Heading.listings, List.foldl_append,
        indexHeading_eq_foldl path site heading]
      exact indexHeadings_eq_foldl path _ rest

end

/-- A new anchor counts where there was none before. -/
theorem anchor?_addAnchor (id other : EntityId) (target : String) :
    (site.addAnchor id target).anchor? other =
      (site.anchor? other).or (if other = id then some target else none) := by
  unfold addAnchor
  split
  · next known =>
      by_cases equal : other = id
      · subst equal
        obtain ⟨old, oldEq⟩ := Option.isSome_iff_exists.mp known
        simp [oldEq]
      · simp [equal]
  · by_cases equal : other = id
    · simp [anchor?, List.lookup_append, equal]
    · have differs : (other == id) = false := beq_false_of_ne equal
      simp [anchor?, List.lookup_append, List.lookup_cons, equal, differs]

@[simp] theorem documents_addAnchor (id : EntityId) (target : String) :
    (site.addAnchor id target).documents = site.documents := by
  unfold addAnchor
  split <;> rfl

/-- An anchor that an added one leaves is the added one or was there before. -/
theorem mem_anchors_addAnchor {id : EntityId} {target : String}
    {entry : EntityId × String}
    (member : entry ∈ (site.addAnchor id target).anchors) :
    entry = (id, target) ∨ entry ∈ site.anchors := by
  unfold addAnchor at member
  split at member
  · exact .inr member
  · simpa [or_comm] using member

/-- What holds of a site holds of it with the headings of a page indexed, when
each added anchor preserves it. -/
theorem indexHeadings_preserves (Holds : Site → Prop) (path : String)
    (headings : List Heading) (holds : Holds site)
    (step : ∀ site, ∀ heading ∈ Heading.listings headings, Holds site →
      Holds (site.addAnchor heading.id (target path heading.title))) :
    Holds (indexHeadings path site headings) := by
  rw [indexHeadings_eq_foldl]
  generalize Heading.listings headings = listing at step
  induction listing generalizing site with
  | nil => exact holds
  | cons heading rest ih =>
      exact ih (step site heading List.mem_cons_self holds)
        fun site other member => step site other (List.mem_cons_of_mem _ member)

@[simp] theorem documents_indexHeadings (path : String) (headings : List Heading) :
    (indexHeadings path site headings).documents = site.documents :=
  indexHeadings_preserves (fun later => later.documents = site.documents) path headings
    rfl fun _ _ _ same => by simp [same]

/-! ## Documents -/

theorem mem_documents_commit {path : String} {page : Page}
    {entry : String × Page} (member : entry ∈ (site.commit path page).documents) :
    entry = (path, { page with members := [] }) ∨ entry ∈ site.documents := by
  simpa [commit, place] using Entries.mem_put member

@[simp] theorem mem_paths_commit {path other : String} {page : Page} :
    other ∈ (site.commit path page).paths ↔ other = path ∨ other ∈ site.paths := by
  simpa [commit, place, paths] using Entries.mem_names_put

/-- The anchors after a commit are those of the headings of the page and those
that were there before. -/
theorem mem_anchors_commit {path : String} {page : Page} {entry : EntityId × String}
    (member : entry ∈ (site.commit path page).anchors) :
    (∃ heading ∈ Heading.listings page.headings,
      entry = (heading.id, target path heading.title)) ∨ entry ∈ site.anchors := by
  have indexed := indexHeadings_preserves
    (fun later => ∀ entry ∈ later.anchors,
      (∃ heading ∈ Heading.listings page.headings,
        entry = (heading.id, target path heading.title)) ∨ entry ∈ site.anchors)
    path page.headings (fun _ held => .inr held)
    fun later heading listed before entry member => by
      rcases mem_anchors_addAnchor member with rfl | old
      · exact .inl ⟨heading, listed, rfl⟩
      · exact before entry old
  exact indexed entry member

/-- A commit gives each entity that had no anchor that of the first heading for it. -/
theorem anchor?_commit (path : String) (page : Page) (id : EntityId) :
    (site.commit path page).anchor? id =
      (site.anchor? id).or (((Heading.listings page.headings).find? (·.id = id)).map
        fun heading => target path heading.title) := by
  have committed : (site.commit path page).anchor? id =
      (indexHeadings path site page.headings).anchor? id := rfl
  rw [committed, indexHeadings_eq_foldl]
  clear committed
  generalize Heading.listings page.headings = listing
  induction listing generalizing site with
  | nil => simp
  | cons heading rest ih =>
      rw [List.foldl_cons, ih, anchor?_addAnchor, Option.or_assoc, List.find?_cons]
      by_cases same : id = heading.id
      · simp [same]
      · simp [same, Ne.symm same]

/-- What is resolved is one of the anchors. -/
theorem mem_anchors_of_resolve? {id : EntityId} {target : String}
    (resolved : site.resolve? catalog id = some target) :
    ∃ anchored, (anchored, target) ∈ site.anchors := by
  obtain ⟨ancestor, _, found⟩ := List.exists_of_findSome?_eq_some resolved
  obtain ⟨before, after, split, _⟩ := List.lookup_eq_some_iff.mp found
  exact ⟨ancestor, by simp [split]⟩

/-! ## Whole pages -/

/-- An entry point that is placed is registered, and its page is added at the
path that derives from its source file. -/
theorem addEntryPoint_eq_ok {options : Options} {id : EntityId} {next : Site}
    (placed : Manual.addEntryPoint catalog options site id = .ok next) :
    ∃ entity path, catalog.entity? id = some entity ∧
      DocumentPath.entry? entity.location.fileName options.extension = some path ∧
      add catalog options.extension path site
        (Page.render catalog options.language entity (.of entity)) = (next, none) := by
  unfold Manual.addEntryPoint at placed
  split at placed
  · cases placed
  · next entity found =>
      obtain ⟨_, rfl⟩ := Registry.get?_eq_some_iff.mp found
      simp only [addEntry, Page.id_render, Identity.of, found] at placed
      cases pathEq : DocumentPath.entry? entity.location.fileName options.extension with
      | none => simp [pathEq] at placed
      | some path =>
          refine ⟨entity, path, found, pathEq, ?_⟩
          simp only [pathEq] at placed
          split at placed
          · cases placed
          · next after done =>
              cases placed
              exact done

/-- A property of sites that holds of the empty site and that commits of fitting
pages preserve, where members of a fitting page fit below it. -/
structure Invariant (catalog : Catalog) (extension : String)
    (Fits : String → Page → Prop) (Holds : Site → Prop) : Prop where
  empty : Holds .empty
  descend : ∀ {path page}, Fits path page → ∀ member ∈ page.members,
    ∀ entity, catalog.entity? member.id = some entity →
      Fits (DocumentPath.member path entity.name extension) member
  commit : ∀ {site path page}, Holds site → Fits path page →
    Holds (site.commit path page)

namespace Invariant

variable {Fits : String → Page → Prop} {Holds : Site → Prop}

mutual

/-- Adding a fitting page preserves an invariant, also when it fails half way. -/
theorem add (invariant : Invariant catalog extension Fits Holds) :
    (page : Page) → {path : String} → {site : Site} → Holds site →
      Fits path page → Holds (Site.add catalog extension path site page).1
  | ⟨id, content, headings, used, members⟩, path, site, holds, fits => by
      rw [add_eq]
      exact invariant.addMembers members (invariant.commit holds fits)
        (invariant.descend fits)

theorem addMembers (invariant : Invariant catalog extension Fits Holds) :
    (members : List Page) → {path : String} → {site : Site} → Holds site →
    (∀ member ∈ members, ∀ entity, catalog.entity? member.id = some entity →
      Fits (DocumentPath.member path entity.name extension) member) →
      Holds (Site.addMembers catalog extension path site members).1
  | [], _, _, holds, _ => holds
  | member :: rest, path, site, holds, fit => by
      rw [Site.addMembers]
      split
      · exact holds
      · next entity found =>
          have added := invariant.add member holds
            (fit member List.mem_cons_self entity found)
          split
          · next failed => rwa [failed] at added
          · next done =>
              rw [done] at added
              exact invariant.addMembers rest added
                fun other inside => fit other (List.mem_cons_of_mem _ inside)

end

/-- An invariant holds of the site of a manual when the pages of all entry points
fit. -/
theorem of_site {options : Options}
    (invariant : Invariant catalog options.extension Fits Holds)
    (fit : ∀ id ∈ catalog.registry.entryPoints, ∀ entity path,
      catalog.entity? id = some entity →
      DocumentPath.entry? entity.location.fileName options.extension = some path →
      Fits path (Page.render catalog options.language entity (.of entity)))
    (built : Manual.site catalog options = .ok site) : Holds site := by
  have start := invariant.empty
  unfold Manual.site at built
  generalize catalog.registry.entryPoints = entryPoints at fit built
  generalize Site.empty = before at start built
  induction entryPoints generalizing before with
  | nil =>
      cases built
      exact start
  | cons id rest ih =>
      rw [List.foldlM_cons] at built
      cases placed : Manual.addEntryPoint catalog options before id with
      | error error =>
          rw [placed] at built
          cases built
      | ok next =>
          rw [placed] at built
          refine ih (fun other member => fit other (List.mem_cons_of_mem _ member))
            next ?_ built
          obtain ⟨entity, path, found, pathEq, added⟩ := addEntryPoint_eq_ok placed
          have kept := invariant.add _ start
            (fit id List.mem_cons_self entity path found pathEq)
          rwa [added] at kept

end Invariant

end Site

/-- What is generated is the output of the site of the manual. -/
theorem Manual.generate_eq_ok_iff {catalog : Catalog} {options : Options}
    {result : List Document × List Diagnostic} :
    Manual.generate catalog options = .ok result ↔
      ∃ site, Manual.site catalog options = .ok site ∧
        site.output catalog (!options.skipContents) = result := by
  unfold Manual.generate
  cases Manual.site catalog options with
  | error error => simp [bind, Except.bind]
  | ok site => simp [bind, Except.bind, pure, Except.pure]

end ApiManual
