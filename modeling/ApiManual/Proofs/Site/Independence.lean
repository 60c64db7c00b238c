import ApiManual.Proofs.Site.Accounting
import ApiManual.Proofs.Site.Settling

/-!
# Independent calls

A site keeps the last page of a path and the first anchor of an entity, so the order of calls
matters where two calls place pages at one path or show headings for one entity.  Calls that do
neither are independent, and it does not matter which of them comes first: every path has the same
page and every entity the same anchor.  Only the order of the documents may differ.

Whether a call fails does not depend on the site, and what it places before it fails is its trace.
So it is enough to exchange the traces of the two calls behind that of the calls before them.
-/

namespace ApiManual.Site

variable {catalog : Catalog} {extension : String} {site other : Site}

/-- Two calls place no pages at the same path and show no headings for the same entity. What a
call leaves out because it fails does not count. -/
structure Independent (catalog : Catalog) (extension : String) (first second : Call) : Prop where
  paths : ∀ entry ∈ first.trace catalog extension, ∀ other ∈ second.trace catalog extension,
    entry.1 ≠ other.1
  headings : ∀ entry ∈ headings (first.trace catalog extension),
    ∀ other ∈ headings (second.trace catalog extension), entry.2.id ≠ other.2.id

/-! ## Sites that differ in order -/

/-- Two sites with the same anchor for every entity and the same page at every path, where no path
is used twice. The documents may come in different orders. -/
structure SameButOrder (site other : Site) : Prop where
  anchors : ∀ id, site.anchor? id = other.anchor? id
  pages : ∀ path, site.documents.lookup path = other.documents.lookup path
  once : site.paths.Nodup
  order : site.paths.Perm other.paths

/-- What is written for the document at a path, and the warnings about it. -/
def written? (catalog : Catalog) (showContents : Bool) (site : Site) (path : String) :
    Option (Document × List Diagnostic) :=
  (site.documents.lookup path).map (site.documentAt catalog showContents path)

/-- Documents and the warnings about each of them, taken together. -/
def together (written : List (Document × List Diagnostic)) : List Document × List Diagnostic :=
  (written.map (·.1), written.flatMap (·.2))

/-- The output of a site is what is written for its paths, in order. -/
theorem output_eq_together (once : site.paths.Nodup) (showContents : Bool) :
    site.output catalog showContents =
      together (site.paths.filterMap (site.written? catalog showContents)) := by
  have outputs : (site.documents.map fun entry =>
      site.documentAt catalog showContents entry.1 entry.2) =
        site.paths.filterMap (site.written? catalog showContents) := by
    conv_lhs => rw [Entries.eq_filterMap_lookup once, List.map_filterMap]
    apply List.filterMap_congr
    intro path _
    rw [written?, Option.map_map]
    rfl
  rw [together, ← outputs]
  rfl

namespace SameButOrder

theorem resolve? (same : site.SameButOrder other) (id : EntityId) :
    site.resolve? catalog id = other.resolve? catalog id := by
  have anchors : site.anchor? = other.anchor? := funext same.anchors
  rw [Site.resolve?, Site.resolve?, anchors]

/-- At every path the same document is written, with the same warnings. -/
theorem written? (same : site.SameButOrder other) (showContents : Bool) (path : String) :
    site.written? catalog showContents path = other.written? catalog showContents path := by
  have documentAt : site.documentAt catalog showContents path =
      other.documentAt catalog showContents path := by
    funext page
    have alike : SettledAlike catalog catalog showContents showContents site other page :=
      ⟨rfl, same.resolve?⟩
    exact alike.documentAt rfl (fun _ => rfl) path
  rw [Site.written?, Site.written?, same.pages, documentAt]

end SameButOrder

/-! ## Exchanging traces -/

theorem or_comm_of_eq_none {α : Type} {left right : Option α}
    (apart : left = none ∨ right = none) : left.or right = right.or left := by
  cases apart with
  | inl none => rw [none, Option.none_or, Option.or_none]
  | inr none => rw [none, Option.none_or, Option.or_none]

variable {before left right : List (String × Page)}

/-- No path in one trace is in another one: looking a path up in one of them fails. -/
theorem lookup_reverse_eq_none_or (apart : ∀ entry ∈ left, ∀ other ∈ right, entry.1 ≠ other.1)
    (path : String) : left.reverse.lookup path = none ∨ right.reverse.lookup path = none := by
  cases found : left.reverse.lookup path with
  | none => exact .inl rfl
  | some page =>
      right
      rw [List.lookup_eq_none_iff]
      intro entry held
      have differs : path ≠ entry.1 :=
        apart _ (Entries.mem_of_lookup_reverse found) entry (List.mem_reverse.mp held)
      simpa using differs

theorem lookup_replay_append_comm (apart : ∀ entry ∈ left, ∀ other ∈ right, entry.1 ≠ other.1)
    (path : String) :
    (Site.empty.replay (before ++ (left ++ right))).documents.lookup path =
      (Site.empty.replay (before ++ (right ++ left))).documents.lookup path := by
  have exchanged : (left ++ right).reverse.lookup path = (right ++ left).reverse.lookup path := by
    rw [List.reverse_append, List.reverse_append, List.lookup_append, List.lookup_append]
    exact or_comm_of_eq_none (lookup_reverse_eq_none_or apart path).symm
  rw [lookup_replay, lookup_replay, @List.reverse_append _ before (left ++ right),
    @List.reverse_append _ before (right ++ left), List.lookup_append, List.lookup_append, exchanged]

theorem anchor?_replay_append_comm
    (apart : ∀ entry ∈ headings left, ∀ other ∈ headings right, entry.2.id ≠ other.2.id)
    (id : EntityId) :
    (Site.empty.replay (before ++ (left ++ right))).anchor? id =
      (Site.empty.replay (before ++ (right ++ left))).anchor? id := by
  have split : ∀ one two : List (String × Page), headings (one ++ two) =
      headings one ++ headings two := fun one two => List.flatMap_append
  have exchanged : (headings (left ++ right)).find? (·.2.id = id) =
      (headings (right ++ left)).find? (·.2.id = id) := by
    rw [split, split, List.find?_append, List.find?_append]
    apply or_comm_of_eq_none
    cases found : (headings left).find? (·.2.id = id) with
    | none => exact .inl rfl
    | some entry =>
        right
        rw [List.find?_eq_none]
        intro other held same
        have entryId : entry.2.id = id := by simpa using List.find?_some found
        exact apart entry (List.mem_of_find?_eq_some found) other held
          (entryId.trans (of_decide_eq_true same).symm)
  rw [replay_append, anchor?_replay, exchanged, ← anchor?_replay, ← replay_append]

theorem paths_replay_append_perm (before left right : List (String × Page)) :
    (Site.empty.replay (before ++ (left ++ right))).paths.Perm
      (Site.empty.replay (before ++ (right ++ left))).paths := by
  rw [paths_replay, paths_replay]
  apply (List.perm_ext_iff_of_nodup (References.nodup_eraseDups _)
    (References.nodup_eraseDups _)).mpr
  intro path
  rw [List.mem_eraseDups, List.mem_eraseDups]
  simp only [List.map_append, List.mem_append, or_comm]

/-- Traces without a common path or a common entity can be exchanged. -/
theorem sameButOrder_replay (paths : ∀ entry ∈ left, ∀ other ∈ right, entry.1 ≠ other.1)
    (apart : ∀ entry ∈ headings left, ∀ other ∈ headings right, entry.2.id ≠ other.2.id) :
    (Site.empty.replay (before ++ (left ++ right))).SameButOrder
      (Site.empty.replay (before ++ (right ++ left))) where
  anchors := anchor?_replay_append_comm apart
  pages := lookup_replay_append_comm paths
  once := by
    rw [paths_replay]
    exact References.nodup_eraseDups _
  order := paths_replay_append_perm before left right

/-! ## Exchanging calls -/

theorem run_pair (site : Site) (first second : Call) :
    run catalog extension site [first, second] =
      (site.replay (first.trace catalog extension ++ second.trace catalog extension),
        [first.failure? catalog extension, second.failure? catalog extension]) := by
  rw [run_eq_replay, trace, List.flatMap_cons, List.flatMap_cons, List.flatMap_nil,
    List.append_nil, List.map_cons, List.map_cons, List.map_nil]

/-- On a site that any calls have led to, also failed ones, two independent calls can be exchanged.
Each of them fails or succeeds as before, every entity has the same anchor, and at every path there
is the same page. So at every path the same document is written with the same warnings, and the
outputs of the two sites differ in nothing but the order of the documents. -/
theorem independent_calls_commute {before : List Call} {site : Site} {first second : Call}
    (reached : (run catalog extension .empty before).1 = site)
    (independent : Independent catalog extension first second) :
    ∃ firstAnswer secondAnswer one other,
      run catalog extension site [first, second] = (one, [firstAnswer, secondAnswer]) ∧
      run catalog extension site [second, first] = (other, [secondAnswer, firstAnswer]) ∧
      one.SameButOrder other ∧
      ∀ showContents,
        (∀ path, one.written? catalog showContents path =
          other.written? catalog showContents path) ∧
        one.output catalog showContents =
          together (one.paths.filterMap (one.written? catalog showContents)) ∧
        other.output catalog showContents =
          together (other.paths.filterMap (other.written? catalog showContents)) := by
  subst reached
  have exchanged := @sameButOrder_replay (trace catalog extension before) _ _
    independent.paths independent.headings
  refine ⟨_, _, _, _, run_pair _ first second, run_pair _ second first, ?_⟩
  rw [run_eq_replay]
  dsimp only
  rw [← replay_append, ← replay_append]
  exact ⟨exchanged, fun showContents => ⟨exchanged.written? showContents,
    output_eq_together exchanged.once showContents,
    output_eq_together (exchanged.order.nodup_iff.mp exchanged.once) showContents⟩⟩

/-- A page with two members, of which only the first one is registered. -/
def sketches : Call :=
  .item
    { id := ⟨"file:sketches"⟩
      content := ["# sketches", "", "[Shape][class:Shape], [Gone][class:Gone]"]
      headings := [⟨"sketches", ⟨"file:sketches"⟩, []⟩]
      used := .ofList [⟨"file:sketches"⟩, ⟨"class:Shape"⟩, ⟨"class:Gone"⟩]
      members :=
        [⟨⟨"class:Shape"⟩, ["# Shape"], [⟨"Shape", ⟨"class:Shape"⟩, []⟩], .empty, []⟩,
         ⟨⟨"class:Gone"⟩, ["# Gone"], [⟨"Gone", ⟨"class:Gone"⟩, []⟩], .empty, []⟩] } "sketches.md"

/-- A page that links to what is documented below another one. -/
def figures : Call :=
  .item
    { id := ⟨"file:figures"⟩
      content := ["# figures", "", "[Shape][class:Shape]"]
      headings := [⟨"figures", ⟨"file:figures"⟩, []⟩]
      used := .ofList [⟨"file:figures"⟩, ⟨"class:Shape"⟩]
      members := [] } "figures.md"

/-- One of the calls fails, after another call that has failed. -/
theorem sketches_and_figures_commute :
    Independent Manual.shapes "md" sketches figures ∧
      ∃ one other,
        run Manual.shapes "md" (run Manual.shapes "md" .empty interrupted).1 [sketches, figures] =
          (one, [some (.unknownEntity ⟨"class:Gone"⟩), none]) ∧
        run Manual.shapes "md" (run Manual.shapes "md" .empty interrupted).1 [figures, sketches] =
          (other, [none, some (.unknownEntity ⟨"class:Gone"⟩)]) ∧
        one.SameButOrder other ∧
        one.paths = ["geometry.md", "sketches.md", "sketches/shape.md", "figures.md"] ∧
        other.paths = ["geometry.md", "figures.md", "sketches.md", "sketches/shape.md"] := by
  have independent : Independent Manual.shapes "md" sketches figures := {
    paths := by decide +kernel
    headings := by decide +kernel }
  have answers : (run Manual.shapes "md" (run Manual.shapes "md" .empty interrupted).1
      [sketches, figures]).2 = [some (.unknownEntity ⟨"class:Gone"⟩), none] := by decide +kernel
  have forward : (run Manual.shapes "md" (run Manual.shapes "md" .empty interrupted).1
      [sketches, figures]).1.paths =
        ["geometry.md", "sketches.md", "sketches/shape.md", "figures.md"] := by decide +kernel
  have backward : (run Manual.shapes "md" (run Manual.shapes "md" .empty interrupted).1
      [figures, sketches]).1.paths =
        ["geometry.md", "figures.md", "sketches.md", "sketches/shape.md"] := by decide +kernel
  obtain ⟨firstAnswer, secondAnswer, one, other, oneEq, otherEq, same, _⟩ :=
    independent_calls_commute rfl independent
  rw [oneEq] at answers forward
  rw [otherEq] at backward
  cases answers
  exact ⟨independent, one, other, oneEq, otherEq, same, forward, backward⟩

end ApiManual.Site
