import ApiManual.FileTree
import ApiManual.Proofs.Site.Walking

/-!
# What writing leaves as it is

Writing a text to a path makes the directories on the way and one file, at the place where the
path leads.  Whatever else is a file stays the file that it was.
-/

namespace ApiManual

/-- Where a path leads from where paths begin, whatever is there. -/
def Place.ofPath (path : String) : Place :=
  (startOf path.toList).follow path.toList

namespace FileTree

variable {tree next : FileTree} {place reached : Place} {path text : String}

theorem textAt?_insert_of_ne {other : Place} {node : Node} (inside : place.steps ≠ [])
    (elsewhere : other ≠ place) : (tree.insert place node).textAt? other = tree.textAt? other := by
  rw [textAt?, node?_insert tree place other node inside, if_neg elsewhere, textAt?]

/-- A new directory is no file, and nothing was there before. -/
theorem textAt?_insert_directory (nothing : tree.node? place = none) (other : Place) :
    (tree.insert place .directory).textAt? other = tree.textAt? other := by
  have inside : place.steps ≠ [] := by
    intro empty
    rw [node?, if_pos empty] at nothing
    cases nothing
  by_cases here : other = place
  · rw [here, textAt?, textAt?, node?_insert tree place place .directory inside, if_pos rfl,
      nothing]
  · exact textAt?_insert_of_ne inside here

/-- One step makes at most a directory where nothing was. -/
theorem makeStep?_eq_some {segment : List Char}
    (made : makeStep? (tree, place) segment = some (next, reached)) :
    reached = place.enter segment ∧ ∀ other, next.textAt? other = tree.textAt? other := by
  unfold makeStep? at made
  dsimp only at made
  split at made
  · cases made
    exact ⟨rfl, fun _ => rfl⟩
  · cases made
  · next nothing =>
      split at made
      · cases made
        exact ⟨rfl, textAt?_insert_directory nothing⟩
      · cases made

/-- The steps of a path make directories at most, on the way to where they lead. -/
theorem foldlM_makeStep? {segments : List (List Char)}
    (made : segments.foldlM makeStep? (tree, place) = some (next, reached)) :
    reached = place.walk segments ∧ ∀ other, next.textAt? other = tree.textAt? other := by
  induction segments generalizing tree place with
  | nil =>
      cases made
      exact ⟨rfl, fun _ => rfl⟩
  | cons segment rest ih =>
      rw [List.foldlM_cons] at made
      obtain ⟨⟨between, entered⟩, step, later⟩ := Option.bind_eq_some_iff.mp made
      obtain ⟨rfl, same⟩ := makeStep?_eq_some step
      obtain ⟨reachedEq, others⟩ := ih later
      exact ⟨reachedEq, fun other => (others other).trans (same other)⟩

/-- A text is written where the path leads, below the directories that the path makes, and never
over a directory. -/
theorem exists_of_write? (written : tree.write? path text = some next) :
    ∃ segments last between,
      Text.pieces '/' path.toList = segments ++ [last] ∧
      Place.ofPath path = ((Place.startOf path.toList).walk segments).enter last ∧
      segments.foldlM makeStep? (tree, Place.startOf path.toList) =
        some (between, (Place.startOf path.toList).walk segments) ∧
      between.node? (Place.ofPath path) ≠ some .directory ∧
      next = between.insert (Place.ofPath path) (.file text) := by
  obtain ⟨segments, last, split⟩ :
      ∃ segments last, Text.pieces '/' path.toList = segments ++ [last] :=
    ⟨_, _, (List.dropLast_append_getLast (Text.pieces_ne_nil _)).symm⟩
  have goal : Place.ofPath path = ((Place.startOf path.toList).walk segments).enter last := by
    rw [Place.ofPath, Place.follow, split, Place.walk_append]
    rfl
  unfold write? at written
  dsimp only at written
  rw [split, List.dropLast_concat, List.getLast?_concat, Option.getD_some] at written
  refine ⟨segments, last, ?_⟩
  split at written
  · split at written
    · cases written
    · next between directory made =>
        obtain ⟨rfl, _⟩ := foldlM_makeStep? made
        rw [← goal] at written
        split at written
        · cases written
        · next notDirectory =>
            cases written
            exact ⟨between, split, goal, made, notDirectory, rfl⟩
  · cases written

/-- Where a text is written, there is no directory from which paths begin. -/
theorem steps_ne_nil (notDirectory : tree.node? place ≠ some .directory) : place.steps ≠ [] := by
  intro empty
  exact notDirectory (by rw [node?, if_pos empty])

/-- Writing to a path changes the file at its end. -/
theorem textAt?_write? {other : Place} (written : tree.write? path text = some next)
    (elsewhere : other ≠ Place.ofPath path) : next.textAt? other = tree.textAt? other := by
  obtain ⟨segments, last, between, _, _, made, notDirectory, rfl⟩ := exists_of_write? written
  have same : between.textAt? other = tree.textAt? other := (foldlM_makeStep? made).2 other
  exact (textAt?_insert_of_ne (steps_ne_nil notDirectory) elsewhere).trans same

/-- Writing texts changes files at the ends of their paths only, even when a write fails. -/
theorem textAt?_writeAll {other : Place} {writes : List (String × String)}
    (elsewhere : ∀ write ∈ writes, other ≠ Place.ofPath write.1) :
    (tree.writeAll writes).1.textAt? other = tree.textAt? other := by
  induction writes generalizing tree with
  | nil => rfl
  | cons write later ih =>
      obtain ⟨path, text⟩ := write
      obtain ⟨here, others⟩ := List.forall_mem_cons.mp elsewhere
      rw [writeAll]
      cases written : tree.write? path text with
      | none => rfl
      | some next => exact (ih others).trans (textAt?_write? written here)

end FileTree

end ApiManual
