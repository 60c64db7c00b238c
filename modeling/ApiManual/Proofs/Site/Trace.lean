import ApiManual.Proofs.Entries.LastValues
import ApiManual.Proofs.Site.Growth

/-!
# Traces of sites

What calls do to a site can be read off the pages that are handed in, without any site: the
trace of a call lists where each page ends up, the page itself first and each member before
its own members, and stops right before the first member that is not registered.

A site refines the trace of its calls under two opposite policies.  Its documents are the
trace by path, each path at its first place with the page that was placed there last.  Its
anchors are those of the first heading for each entity.
-/

namespace ApiManual

/-- A page as a site keeps it, without the pages of its members. -/
def Page.alone (page : Page) : Page := { page with members := [] }

namespace Site

/-! ## Listings -/

section Listings

variable (catalog : Catalog) (extension : String)

/-- Where a member is placed below the page at a path; nowhere when the member is not
registered or that page has no place itself. -/
def memberPath? (container : Option String) (member : Page) : Option String := do
  return DocumentPath.member (← container) (← catalog.entity? member.id).name extension

mutual

/-- A page and all pages below it, each before those below it, with their places. -/
def visits (place : Option String) : Page → List (Option String × Page)
  | ⟨id, content, headings, used, members⟩ =>
      (place, ⟨id, content, headings, used, members⟩) :: visitsBelow place members

/-- The members of the page at a place and all pages below them, with their places. -/
def visitsBelow (place : Option String) : List Page → List (Option String × Page)
  | [] => []
  | member :: rest =>
      visits (memberPath? catalog extension place member) member ++ visitsBelow place rest

end

end Listings

/-- The pages before the first one that has no place, without their members. -/
def placed : List (Option String × Page) → List (String × Page)
  | (some path, page) :: rest => (path, page.alone) :: placed rest
  | (none, _) :: _ | [] => []

/-- The entity of the first page that has no place. -/
def refused? (visits : List (Option String × Page)) : Option EntityId :=
  (visits.find? (·.1.isNone)).map (·.2.id)

theorem placed_append_of_refused?_eq_none {first rest : List (Option String × Page)}
    (accepted : refused? first = none) : placed (first ++ rest) = placed first ++ placed rest := by
  induction first with
  | nil => rfl
  | cons visit later ih =>
      obtain ⟨place, page⟩ := visit
      cases place with
      | none => simp [refused?] at accepted
      | some path =>
          simp only [refused?, List.find?_cons, Option.isNone_some] at accepted
          simp only [List.cons_append, placed, ih accepted]

theorem placed_append_of_refused?_eq_some {first rest : List (Option String × Page)}
    {id : EntityId} (refused : refused? first = some id) :
    placed (first ++ rest) = placed first := by
  induction first with
  | nil => simp [refused?] at refused
  | cons visit later ih =>
      obtain ⟨place, page⟩ := visit
      cases place with
      | none => rfl
      | some path =>
          simp only [refused?, List.find?_cons, Option.isNone_some] at refused
          simp only [List.cons_append, placed, ih refused]

theorem refused?_append (first rest : List (Option String × Page)) :
    refused? (first ++ rest) = (refused? first).or (refused? rest) := by
  simp only [refused?, List.find?_append, Option.map_or]

/-! ## Calls -/

/-- A call on a site: a page to be added at a path, or the page of an entry point. -/
inductive Call where
  | item (page : Page) (path : String)
  | entry (page : Page)

namespace Call

section

variable (catalog : Catalog) (extension : String)

/-- The page that is handed in. -/
def page : Call → Page
  | .item page _ | .entry page => page

/-- The site after a call, and why the call failed if it did. -/
def perform (site : Site) : Call → Site × Option Error
  | .item page path => site.add catalog extension path page
  | .entry page => site.addEntry catalog extension page

/-- The path of the page that is handed in. That of an entry point derives from the source file
of its entity, which has to be registered. -/
def start : Call → Except Error String
  | .item _ path => .ok path
  | .entry page => match catalog.entity? page.id with
    | none => .error (.unknownEntity page.id)
    | some entity => match DocumentPath.entry? entity.location.fileName extension with
      | none => .error (.invalidDocumentPath page.id entity.location.fileName)
      | some path => .ok path

/-- Where a call places pages, in order. -/
def trace (call : Call) : List (String × Page) :=
  match call.start catalog extension with
  | .error _ => []
  | .ok path => placed (visits catalog extension (some path) call.page)

/-- Why a call fails, whatever the site. -/
def failure? (call : Call) : Option Error :=
  match call.start catalog extension with
  | .error error => some error
  | .ok path =>
      (refused? (visits catalog extension (some path) call.page)).map .unknownEntity

end

end Call

/-- The site after calls one after the other, and what each of them answers. -/
def run (catalog : Catalog) (extension : String) (site : Site) :
    List Call → Site × List (Option Error)
  | [] => (site, [])
  | call :: rest =>
      let (next, answer) := call.perform catalog extension site
      let (last, answers) := next.run catalog extension rest
      (last, answer :: answers)

/-- Where calls place pages, in order. -/
def trace (catalog : Catalog) (extension : String) (calls : List Call) :
    List (String × Page) :=
  calls.flatMap (·.trace catalog extension)

/-- The site after a trace: each page is committed at its path. -/
def replay (site : Site) (trace : List (String × Page)) : Site :=
  trace.foldl (fun site entry => site.commit entry.1 entry.2) site

variable {catalog : Catalog} {extension : String} {site : Site}

theorem replay_append (first rest : List (String × Page)) :
    site.replay (first ++ rest) = (site.replay first).replay rest :=
  List.foldl_append

mutual

/-- Adding a page commits what the listing of the page places, and fails for the first page
that has no place. -/
theorem add_eq_replay (path : String) (site : Site) : (page : Page) →
    add catalog extension path site page =
      (site.replay (placed (visits catalog extension (some path) page)),
        (refused? (visits catalog extension (some path) page)).map .unknownEntity)
  | ⟨id, content, headings, used, members⟩ => by
      rw [add_eq]
      exact addMembers_eq_replay path _ members

theorem addMembers_eq_replay (path : String) (site : Site) : (members : List Page) →
    addMembers catalog extension path site members =
      (site.replay (placed (visitsBelow catalog extension (some path) members)),
        (refused? (visitsBelow catalog extension (some path) members)).map .unknownEntity)
  | [] => rfl
  | member :: rest => by
      rw [addMembers, visitsBelow]
      cases found : catalog.entity? member.id with
      | none =>
          have nowhere : memberPath? catalog extension (some path) member = none := by
            simp [memberPath?, found]
          rw [nowhere]
          cases member
          rfl
      | some entity =>
          have place : memberPath? catalog extension (some path) member =
              some (DocumentPath.member path entity.name extension) := by
            simp [memberPath?, found]
          dsimp only
          rw [place, add_eq_replay _ site member, refused?_append]
          cases refused : refused? (visits catalog extension
              (some (DocumentPath.member path entity.name extension)) member) with
          | some id =>
              -- What a member refuses ends the call: the rest of the listing is not placed.
              rw [placed_append_of_refused?_eq_some refused]
              rfl
          | none =>
              rw [placed_append_of_refused?_eq_none refused, replay_append]
              exact addMembers_eq_replay path _ rest

end

theorem perform_eq_replay (call : Call) :
    call.perform catalog extension site =
      (site.replay (call.trace catalog extension), call.failure? catalog extension) := by
  cases call with
  | item page path => exact add_eq_replay path site page
  | entry page =>
      simp only [Call.perform, addEntry, Call.trace, Call.failure?, Call.start]
      cases catalog.entity? page.id with
      | none => rfl
      | some entity =>
          dsimp only
          cases DocumentPath.entry? entity.location.fileName extension with
          | none => rfl
          | some path => exact add_eq_replay path site page

/-- Calls commit what their trace lists, and each fails or succeeds on its own account. -/
theorem run_eq_replay (site : Site) (calls : List Call) :
    run catalog extension site calls =
      (site.replay (trace catalog extension calls),
        calls.map (·.failure? catalog extension)) := by
  induction calls generalizing site with
  | nil => rfl
  | cons call rest ih =>
      rw [run, perform_eq_replay]
      dsimp only
      rw [ih, ← replay_append]
      rfl

/-! ## Documents -/

/-- The pages of a trace by path: each path where it occurs first, with the page that it holds
last. -/
def settled (trace : List (String × Page)) : List (String × Page) :=
  (trace.map (·.1)).eraseDups.filterMap fun path =>
    (trace.reverse.lookup path).map (path, ·)

theorem mem_of_mem_settled {trace : List (String × Page)} {entry : String × Page}
    (member : entry ∈ settled trace) : entry ∈ trace := by
  obtain ⟨path, _, found⟩ := List.mem_filterMap.mp member
  obtain ⟨page, last, rfl⟩ := Option.map_eq_some_iff.mp found
  exact Entries.mem_of_lookup_reverse last

/-- A replay puts the pages of a trace at their paths, without their members. -/
theorem documents_replay_eq_putAll (site : Site) (trace : List (String × Page)) :
    (site.replay trace).documents =
      Entries.putAll site.documents (trace.map fun entry => (entry.1, entry.2.alone)) := by
  induction trace generalizing site with
  | nil => rfl
  | cons first rest ih =>
      have step : (site.commit first.1 first.2).documents =
          Entries.put first.1 first.2.alone site.documents := by
        simp [commit, place, Page.alone]
      rw [replay, List.foldl_cons, ← replay, ih, step]
      rfl

/-- A path keeps the place at which it was first used. -/
theorem paths_replay (trace : List (String × Page)) :
    (Site.empty.replay trace).paths = (trace.map (·.1)).eraseDups := by
  rw [paths, documents_replay_eq_putAll]
  refine (Entries.names_putAll _).trans ?_
  rw [List.map_map]
  rfl

/-- The last page of a path wins. -/
theorem lookup_replay (trace : List (String × Page)) (path : String) :
    (Site.empty.replay trace).documents.lookup path =
      (trace.reverse.lookup path).map Page.alone := by
  rw [documents_replay_eq_putAll]
  refine (Entries.lookup_putAll _ path).trans ?_
  rw [← List.map_reverse, Entries.lookup_map]

/-- The documents are the trace by path, when it lists pages without their members. -/
theorem documents_replay {trace : List (String × Page)}
    (alone : ∀ entry ∈ trace, entry.2.alone = entry.2) :
    (Site.empty.replay trace).documents = settled trace := by
  -- No path occurs twice, so looking up each path gives the documents back.
  have paths := paths_replay trace
  have nodup : ((Site.empty.replay trace).documents.map (·.1)).Nodup := by
    rw [← Site.paths, paths]
    exact References.nodup_eraseDups _
  rw [Entries.eq_filterMap_lookup nodup, ← Site.paths, paths, settled]
  refine List.filterMap_congr fun path _ => ?_
  rw [lookup_replay]
  cases last : trace.reverse.lookup path with
  | none => rfl
  | some page =>
      rw [Option.map_some, Option.map_some, Option.map_some, alone _ (Entries.mem_of_lookup_reverse last)]

/-! ## Anchors -/

/-- The headings on the pages of a trace, each before the ones below it, with the paths of their
pages. -/
def headings (trace : List (String × Page)) : List (String × Heading) :=
  trace.flatMap fun (path, page) => (Heading.listings page.headings).map (path, ·)

/-- The first heading for an entity wins. -/
theorem anchor?_replay (site : Site) (trace : List (String × Page)) (id : EntityId) :
    (site.replay trace).anchor? id =
      (site.anchor? id).or (((headings trace).find? (·.2.id = id)).map
        fun (path, heading) => path ++ "#" ++ slug heading.title) := by
  induction trace generalizing site with
  | nil => simp [replay, headings]
  | cons entry rest ih =>
      obtain ⟨path, page⟩ := entry
      have first : ((Heading.listings page.headings).map (path, ·)).find? (·.2.id = id) =
          ((Heading.listings page.headings).find? (·.id = id)).map (path, ·) :=
        List.find?_map
      have split : headings ((path, page) :: rest) =
          (Heading.listings page.headings).map (path, ·) ++ headings rest := List.flatMap_cons
      rw [replay, List.foldl_cons, ← replay, ih, anchor?_commit, Option.or_assoc, split,
        List.find?_append, first, Option.map_or, Option.map_map]
      rfl

/-- A replay gives anchors to the entities of the headings of its trace. -/
theorem isSome_anchor?_replay {trace : List (String × Page)} {id : EntityId} :
    ((Site.empty.replay trace).anchor? id).isSome ↔
      ∃ entry ∈ trace, ∃ heading ∈ Heading.listings entry.2.headings, heading.id = id := by
  rw [anchor?_replay, Option.isSome_or, Bool.or_eq_true, Option.isSome_map, List.find?_isSome]
  simp only [headings, List.mem_flatMap, List.mem_map, decide_eq_true_eq]
  constructor
  · rintro (none | ⟨_, ⟨entry, held, heading, listed, rfl⟩, same⟩)
    · cases none
    · exact ⟨entry, held, heading, listed, same⟩
  · rintro ⟨entry, held, heading, listed, same⟩
    exact .inr ⟨(entry.1, heading), ⟨entry, held, heading, listed, rfl⟩, same⟩

/-! ## Refinement -/

/-- Pages are placed without their members. -/
theorem alone_of_mem_trace {calls : List Call} {entry : String × Page}
    (member : entry ∈ trace catalog extension calls) : entry.2.alone = entry.2 := by
  obtain ⟨call, _, listed⟩ := List.mem_flatMap.mp member
  rw [Call.trace] at listed
  split at listed
  · cases listed
  · next path _ =>
      generalize visits catalog extension (some path) call.page = visits at listed
      induction visits with
      | nil => cases listed
      | cons visit rest ih =>
          obtain ⟨place, page⟩ := visit
          cases place with
          | none => cases listed
          | some path =>
              rcases List.mem_cons.mp listed with rfl | later
              · rfl
              · exact ih later

/-- After any calls the documents of a site are the trace of the calls by path, where the last
page of a path wins and the path keeps its first place. The anchor of an entity is that of the
first heading for it in the trace, and other entities have none. Each call fails for the first
page of its listing that has no place, and then its trace ends there. -/
theorem run_refines_trace (catalog : Catalog) (extension : String) (calls : List Call) :
    ∃ site,
      run catalog extension .empty calls =
        (site, calls.map (·.failure? catalog extension)) ∧
      site.documents = settled (trace catalog extension calls) ∧
      ∀ id, site.anchor? id =
        ((headings (trace catalog extension calls)).find? (·.2.id = id)).map
          fun (path, heading) => path ++ "#" ++ slug heading.title := by
  exact ⟨_, run_eq_replay .empty calls,
    documents_replay fun _ member => alone_of_mem_trace member,
    fun id => anchor?_replay .empty _ id⟩

end Site

end ApiManual
