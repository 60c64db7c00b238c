import ApiManual.Proofs.Site.Below

/-!
# Relative links

A link leads back to what it was made for.  Whoever follows it needs nothing but the segments of
the directory in which it stands: a segment `..` takes the last one away, any other is put behind
them.  No segment is taken away that is not there, and what remains at the end is the path of the
target.
-/

namespace ApiManual.DocumentPath

/-! ## Following a link -/

/-- The segments that lead to a place below the start after one more segment. Segments that lead
nowhere change nothing, and `..` takes the last segment away, if there is one. -/
def advance? (reached : List (List Char)) (segment : List Char) : Option (List (List Char)) :=
  if isStep segment then
    if segment = ['.', '.'] then
      if reached = [] then none else some reached.dropLast
    else some (reached ++ [segment])
  else some reached

/-- The segments that lead to where a link leads. -/
def advanceAlong? (reached : List (List Char)) (link : List Char) : Option (List (List Char)) :=
  (Text.pieces '/' link).foldlM advance? reached

variable {reached goal : List (List Char)} {segment : List Char}

/-- Nothing that is not there is taken away exactly when the way does not lead above the start. -/
theorem advance?_eq_some_iff :
    advance? reached segment = some goal ↔
      Place.enter ⟨.working 0, reached⟩ segment = ⟨.working 0, goal⟩ := by
  by_cases step : isStep segment = true
  · by_cases up : segment = ['.', '.']
    · subst up
      cases reached with
      | nil => simp [advance?, isStep, Place.parent]
      | cons first later => simp [advance?, isStep, Place.parent]
    · rw [advance?, if_pos step, if_neg up, Place.enter_name step up]
      simp
  · have still : segment = [] ∨ segment = ['.'] := by
      simpa [isStep, Decidable.imp_iff_not_or] using step
    rw [advance?, if_neg step, Place.enter, if_pos still]
    simp

theorem foldlM_advance?_eq_some_iff {segments : List (List Char)} :
    segments.foldlM advance? reached = some goal ↔
      Place.walk ⟨.working 0, reached⟩ segments = ⟨.working 0, goal⟩ := by
  induction segments generalizing reached with
  | nil => simp
  | cons segment rest ih =>
      rw [List.foldlM_cons, Place.walk_cons, Option.bind_eq_bind, Option.bind_eq_some_iff]
      constructor
      · rintro ⟨next, first, later⟩
        rw [advance?_eq_some_iff.mp first]
        exact ih.mp later
      · intro arrives
        have inside : (Place.enter ⟨.working 0, reached⟩ segment).origin = .working 0 := by
          have arrived : ((Place.enter ⟨.working 0, reached⟩ segment).walk rest).origin =
              .working 0 := by
            rw [arrives]
          exact Place.origin_eq_of_walk arrived
        generalize entered : Place.enter ⟨.working 0, reached⟩ segment = place at arrives inside
        obtain ⟨origin, next⟩ := place
        cases inside
        exact ⟨next, advance?_eq_some_iff.mpr entered, ih.mpr arrives⟩

/-! ## Links with anchors -/

/-- A path, with an anchor behind it when there is one. -/
def anchored (path : String) : (anchor : Option String) → String
  | none => path
  | some anchor => path ++ "#" ++ anchor

theorem toList_relative_of_not_mem {path : String} (noHash : '#' ∉ path.toList) (start : String) :
    (relative start path).toList =
      ['/'].intercalate (stepsBetween (steps start.toList) (steps path.toList)) := by
  simp only [relative, Text.splitFirst?_eq_none_iff.mpr noHash, String.toList_append,
    toList_joined, String.toList_empty, List.append_nil]

/-- The link to a path with an anchor is the link to the path, with that anchor. -/
theorem relative_anchored {path : String} (noHash : '#' ∉ path.toList) (start : String)
    (anchor : Option String) :
    relative start (anchored path anchor) = anchored (relative start path) anchor := by
  cases anchor with
  | none => rfl
  | some anchor =>
      have cut : Text.splitFirst? '#' (anchored path (some anchor)).toList =
          some (path.toList, anchor.toList) :=
        Text.splitFirst?_eq_some_iff.mpr ⟨by simp [anchored], noHash⟩
      apply String.toList_inj.mp
      rw [toList_relative cut, anchored, String.toList_append, String.toList_append,
        toList_relative_of_not_mem noHash]
      simp

theorem hash_not_mem_relative {path : String} (noHash : '#' ∉ path.toList) (start : String) :
    '#' ∉ (relative start path).toList := by
  rw [toList_relative_of_not_mem noHash]
  intro inside
  rcases Text.mem_of_mem_intercalate inside with slash | ⟨segment, inWay, inSegment⟩
  · simp at slash
  · exact (clean_of_mem_stepsBetween inWay).2.2 noHash inSegment

/-! ## Leading back -/

theorem up_not_mem_steps {path : List Char} (down : ['.', '.'] ∉ Text.pieces '/' path) :
    ['.', '.'] ∉ steps path := fun member => down (List.mem_filter.mp member).1

/-- Where no segment leads up, the link from a directory to a target takes the anchor over as it
is, and its path leads from the segments of the directory to those of the target's path, without
taking a segment away that is not there. -/
theorem relative_leads_back {directory path : String} (anchor : Option String)
    (noHash : '#' ∉ path.toList) (directoryDown : ['.', '.'] ∉ Text.pieces '/' directory.toList)
    (pathDown : ['.', '.'] ∉ Text.pieces '/' path.toList) :
    relative directory (anchored path anchor) = anchored (relative directory path) anchor ∧
      '#' ∉ (relative directory path).toList ∧
      advanceAlong? (steps directory.toList) (relative directory path).toList =
        some (steps path.toList) := by
  refine ⟨relative_anchored noHash directory anchor, hash_not_mem_relative noHash directory, ?_⟩
  have start : Place.output.walk (steps directory.toList) =
      ⟨.working 0, steps directory.toList⟩ :=
    walk_of_not_mem (fun _ => isStep_of_mem_steps) (up_not_mem_steps directoryDown)
  have goal : Place.output.walk (steps path.toList) = ⟨.working 0, steps path.toList⟩ :=
    walk_of_not_mem (fun _ => isStep_of_mem_steps) (up_not_mem_steps pathDown)
  have way : steps (relative directory path).toList =
      stepsBetween (steps directory.toList) (steps path.toList) := by
    rw [toList_relative_of_not_mem noHash, steps_intercalate]
    intro segment member
    have clean := clean_of_mem_stepsBetween member
    exact ⟨clean.1, clean.2.1⟩
  rw [advanceAlong?, foldlM_advance?_eq_some_iff]
  calc
    Place.walk ⟨.working 0, steps directory.toList⟩
          (Text.pieces '/' (relative directory path).toList) =
        Place.walk ⟨.working 0, steps directory.toList⟩
          (stepsBetween (steps directory.toList) (steps path.toList)) := by
      rw [← way, ← Place.follow_eq_walk_steps, Place.follow]
    _ = Place.output.walk (steps path.toList) := by
      rw [← start]
      refine (walk_stepsBetween_iff (fun _ => isStep_of_mem_steps)
        fun _ => isStep_of_mem_steps).mpr fun member => ?_
      exact up_not_mem_steps directoryDown (List.mem_of_mem_drop member)
    _ = ⟨.working 0, steps path.toList⟩ := goal

/-- Superfluous separators do not count, and an anchor may itself hold the mark before it. -/
theorem relative_from_maps_leads_back :
    '#' ∉ "atlas/./maps/world.md".toList ∧
    ['.', '.'] ∉ Text.pieces '/' "atlas//islands/".toList ∧
    ['.', '.'] ∉ Text.pieces '/' "atlas/./maps/world.md".toList ∧
    relative "atlas//islands/" "atlas/./maps/world.md#north#pole" =
      "../maps/world.md#north#pole" ∧
    advanceAlong? ["atlas".toList, "islands".toList] "../maps/world.md".toList =
      some ["atlas".toList, "maps".toList, "world.md".toList] := by
  have noHash : '#' ∉ "atlas/./maps/world.md".toList := by decide
  have directoryDown : ['.', '.'] ∉ Text.pieces '/' "atlas//islands/".toList := by decide
  have pathDown : ['.', '.'] ∉ Text.pieces '/' "atlas/./maps/world.md".toList := by decide
  have back := relative_leads_back (some "north#pole") noHash directoryDown pathDown
  have link : relative "atlas//islands/" "atlas/./maps/world.md" = "../maps/world.md" := by decide
  rw [link] at back
  exact ⟨noHash, directoryDown, pathDown, back.1, back.2.2⟩

end ApiManual.DocumentPath
