import ApiManual.FileTree.Place
import ApiManual.Proofs.Site.PathParts
import Mathlib.Data.List.Induction
import Mathlib.Data.List.TakeWhile

/-!
# Following links

A link is followed segment by segment from the directory of the document that
holds it.  The link from a directory to a path goes up once for every segment of
the directory that the path does not share, and then down.  That is right for
segments that lead down, and only for those: at a segment that itself leads up,
the link goes up where it would have to go down.  How deep a place is tells both
cases apart, since a segment changes it by exactly one.
-/

namespace ApiManual

/-! ## Walks -/

namespace Place

/-- The directory below which documents are placed. -/
def output : Place := ⟨.working 0, []⟩

/-- Where segments lead from a place, one after the other. -/
def walk (place : Place) (segments : List (List Char)) : Place :=
  segments.foldl enter place

/-- Where a path leads from a place. -/
def follow (place : Place) (path : List Char) : Place :=
  place.walk (Text.pieces '/' path)

variable {place : Place} {segment : List Char}

@[simp] theorem walk_nil : place.walk [] = place := rfl

@[simp] theorem walk_cons (segments : List (List Char)) :
    place.walk (segment :: segments) = (place.enter segment).walk segments := rfl

theorem walk_append (left right : List (List Char)) :
    place.walk (left ++ right) = (place.walk left).walk right :=
  List.foldl_append

/-- Segments that lead nowhere can be left out. -/
theorem walk_filter (segments : List (List Char)) :
    place.walk (segments.filter DocumentPath.isStep) = place.walk segments := by
  induction segments generalizing place with
  | nil => rfl
  | cons segment rest ih =>
      by_cases step : DocumentPath.isStep segment = true
      · rw [List.filter_cons_of_pos step, walk_cons, walk_cons, ih]
      · have still : segment = [] ∨ segment = ['.'] := by
          simpa [DocumentPath.isStep, Decidable.imp_iff_not_or] using step
        rw [List.filter_cons_of_neg step, walk_cons, enter, if_pos still, ih]

theorem follow_eq_walk_steps (path : List Char) :
    place.follow path = place.walk (DocumentPath.steps path) :=
  (walk_filter _).symm

theorem enter_name (step : DocumentPath.isStep segment = true)
    (name : segment ≠ ['.', '.']) :
    place.enter segment = ⟨place.origin, place.steps ++ [segment]⟩ := by
  have moves : ¬ (segment = [] ∨ segment = ['.']) := by
    simpa [DocumentPath.isStep, not_or] using step
  rw [enter, if_neg moves, if_neg name]

/-- The directory above what a name leads to is where the name was followed. -/
theorem parent_enter (step : DocumentPath.isStep segment = true)
    (name : segment ≠ ['.', '.']) : (place.enter segment).parent = place := by
  rw [enter_name step name]
  obtain ⟨origin, steps⟩ := place
  cases steps with
  | nil => cases origin <;> rfl
  | cons first later =>
      have dropped : (first :: (later ++ [segment])).dropLast = first :: later := by
        rw [← List.cons_append, List.dropLast_concat]
      cases origin <;> simp [parent, dropped]

@[simp] theorem enter_up : place.enter ['.', '.'] = place.parent := rfl

/-- Names are undone by as many steps up. -/
theorem walk_up {names : List (List Char)}
    (steps : ∀ name ∈ names, DocumentPath.isStep name = true)
    (down : ['.', '.'] ∉ names) :
    (place.walk names).walk (List.replicate names.length ['.', '.']) = place := by
  induction names using List.reverseRecOn with
  | nil => rfl
  | append_singleton names last ih =>
      rw [List.mem_append, not_or, List.mem_singleton] at down
      have lastStep : DocumentPath.isStep last = true := steps last (by simp)
      rw [walk_append, List.length_append, List.length_singleton,
        List.replicate_succ, walk_cons, enter_up, walk_cons, walk_nil,
        parent_enter lastStep (Ne.symm down.2)]
      exact ih (fun name member => steps name (by simp [member])) down.1

/-! ## Depth -/

/-- How far a place is below the start of relative paths; negative above it. -/
def depth (place : Place) : Int :=
  match place.origin with
  | .working above => place.steps.length - above
  | .root => place.steps.length

/-- A step leads down by one, or up by one when it is `..`. -/
theorem depth_enter (relative : place.origin ≠ .root)
    (step : DocumentPath.isStep segment = true) :
    (place.enter segment).origin ≠ .root ∧
      (place.enter segment).depth =
        place.depth + if segment = ['.', '.'] then -1 else 1 := by
  by_cases up : segment = ['.', '.']
  · subst up
    obtain ⟨origin, steps⟩ := place
    cases origin with
    | root => exact absurd rfl relative
    | working above =>
        cases steps with
        | nil =>
            simp [parent, depth]
            omega
        | cons first later =>
            simp [parent, depth]
            omega
  · rw [enter_name step up]
    refine ⟨relative, ?_⟩
    obtain ⟨origin, steps⟩ := place
    cases origin with
    | root => exact absurd rfl relative
    | working above =>
        simp [depth, up]
        omega

theorem mem_steps_enter {name : List Char}
    (member : name ∈ (place.enter segment).steps) :
    name ∈ place.steps ∨ name = segment := by
  unfold enter at member
  split at member
  · exact .inl member
  · split at member
    · obtain ⟨origin, steps⟩ := place
      cases steps with
      | nil => cases origin <;> simp [parent] at member
      | cons first later =>
          cases origin <;> exact .inl (List.dropLast_subset _ member)
    · simpa using member

/-- What is on the way to a place was there before or is a segment that was
followed. -/
theorem mem_steps_walk {segments : List (List Char)} {name : List Char}
    (member : name ∈ (place.walk segments).steps) :
    name ∈ place.steps ∨ name ∈ segments := by
  induction segments generalizing place with
  | nil => exact .inl member
  | cons segment rest ih =>
      rcases ih member with entered | later
      · rcases mem_steps_enter entered with before | rfl
        · exact .inl before
        · exact .inr List.mem_cons_self
      · exact .inr (List.mem_cons_of_mem _ later)

theorem depth_walk {segments : List (List Char)} (relative : place.origin ≠ .root)
    (steps : ∀ segment ∈ segments, DocumentPath.isStep segment = true) :
    (place.walk segments).origin ≠ .root ∧
      (place.walk segments).depth =
        place.depth + segments.length - 2 * segments.count ['.', '.'] := by
  induction segments generalizing place with
  | nil => simpa using relative
  | cons segment rest ih =>
      obtain ⟨origin, first⟩ := depth_enter relative (steps segment (by simp))
      obtain ⟨rest_origin, later⟩ :=
        ih origin fun other member => steps other (by simp [member])
      refine ⟨rest_origin, ?_⟩
      rw [walk_cons, later, first, List.length_cons, List.count_cons]
      by_cases up : segment = ['.', '.']
      · simp [up]
        omega
      · simp [up]
        omega

end Place

/-! ## From directory to path -/

namespace DocumentPath

theorem isStep_of_mem_steps {path segment : List Char}
    (member : segment ∈ steps path) : isStep segment = true :=
  (List.mem_filter.mp member).2

theorem slash_not_mem_of_mem_steps {path segment : List Char}
    (member : segment ∈ steps path) : '/' ∉ segment :=
  Text.not_mem_of_mem_pieces (List.mem_filter.mp member).1

theorem mem_of_mem_steps {path segment : List Char} {char : Char}
    (member : segment ∈ steps path) (inside : char ∈ segment) : char ∈ path :=
  Text.mem_of_mem_pieces (List.mem_filter.mp member).1 inside

/-- Segments that are put together with slashes are the steps of the path they
make. -/
theorem steps_intercalate {segments : List (List Char)}
    (each : ∀ segment ∈ segments, isStep segment = true ∧ '/' ∉ segment) :
    steps (['/'].intercalate segments) = segments := by
  rw [steps, Text.pieces_eq_splitOn]
  by_cases none : segments = []
  · subst none
    simp [isStep]
  · rw [List.splitOn_intercalate _ (fun segment member => (each segment member).2) none]
    exact List.filter_eq_self.mpr fun segment member => (each segment member).1

/-- Two paths agree on as many segments as they have in common. -/
theorem take_commonSteps (left right : List (List Char)) :
    left.take (commonSteps left right) = right.take (commonSteps left right) := by
  fun_induction commonSteps left right with
  | case1 left lefts rights ih => simp [ih]
  | case2 left lefts right rights different => simp
  | case3 left right => simp

/-- As many segments up as there are to be left, and then ahead, leads where the segments ahead
lead exactly when none of the segments to be left leads up. -/
theorem walk_back_iff {place : Place} (relative : place.origin ≠ .root)
    {left ahead : List (List Char)} (leftSteps : ∀ segment ∈ left, isStep segment = true)
    (aheadSteps : ∀ segment ∈ ahead, isStep segment = true) :
    (place.walk left).walk (List.replicate left.length ['.', '.'] ++ ahead) =
        place.walk ahead ↔
      ['.', '.'] ∉ left := by
  have upSteps : ∀ segment ∈ List.replicate left.length ['.', '.'], isStep segment = true :=
    fun segment member => List.eq_of_mem_replicate member ▸ by decide
  rw [Place.walk_append]
  constructor
  · -- the depths agree only if nothing on the way to be left leads up
    intro same
    obtain ⟨leftRelative, leftDepth⟩ := Place.depth_walk relative leftSteps
    obtain ⟨upRelative, upDepth⟩ := Place.depth_walk leftRelative upSteps
    obtain ⟨_, wayDepth⟩ := Place.depth_walk upRelative aheadSteps
    obtain ⟨_, goalDepth⟩ := Place.depth_walk relative aheadSteps
    rw [same, upDepth, leftDepth, goalDepth, List.length_replicate,
      List.count_replicate_self] at wayDepth
    exact List.count_eq_zero.mp (by omega)
  · intro down
    rw [Place.walk_up leftSteps down]

/-- The way from one place to another leads there exactly when none of the
segments to be left leads up. -/
theorem walk_stepsBetween_iff {start goal : List (List Char)}
    (startSteps : ∀ segment ∈ start, isStep segment = true)
    (goalSteps : ∀ segment ∈ goal, isStep segment = true) :
    (Place.output.walk start).walk (stepsBetween start goal) =
        Place.output.walk goal ↔
      ['.', '.'] ∉ start.drop (commonSteps start goal) := by
  have shared := take_commonSteps start goal
  rw [stepsBetween]
  generalize commonSteps start goal = common at shared
  have startWay : Place.output.walk start =
      (Place.output.walk (goal.take common)).walk (start.drop common) := by
    rw [← Place.walk_append, ← shared, List.take_append_drop]
  have goalWay : Place.output.walk goal =
      (Place.output.walk (goal.take common)).walk (goal.drop common) := by
    rw [← Place.walk_append, List.take_append_drop]
  have relative : (Place.output.walk (goal.take common)).origin ≠ .root :=
    (Place.depth_walk (by simp [Place.output])
      fun segment member => goalSteps segment (List.mem_of_mem_take member)).1
  rw [startWay, goalWay, ← List.length_drop]
  exact walk_back_iff relative
    (fun segment member => startSteps segment (List.mem_of_mem_drop member))
    (fun segment member => goalSteps segment (List.mem_of_mem_drop member))

/-- Where the way from one place to another leads when nothing on either side
leads up. -/
theorem walk_of_not_mem {segments : List (List Char)}
    (each : ∀ segment ∈ segments, isStep segment = true)
    (down : ['.', '.'] ∉ segments) :
    Place.output.walk segments = ⟨.working 0, segments⟩ := by
  induction segments using List.reverseRecOn with
  | nil => rfl
  | append_singleton segments last ih =>
      rw [List.mem_append, not_or, List.mem_singleton] at down
      rw [Place.walk_append, ih (fun segment member => each segment (by simp [member])) down.1,
        Place.walk_cons, Place.walk_nil,
        Place.enter_name (each last (by simp)) (Ne.symm down.2)]

/-! ## Links -/

/-- A link in the document at a location leads to another location: the part of
the link before its first `#` is followed from the directory of the document. -/
def LeadsTo (location link goal : String) : Prop :=
  (Place.output.follow (directoryOf location.toList)).follow
      (link.toList.takeWhile (· ≠ '#')) =
    Place.output.follow goal.toList

instance (location link goal : String) : Decidable (LeadsTo location link goal) :=
  inferInstanceAs (Decidable (_ = _))

/-- A path that reads the same as a path, as the beginning of a link and after
backslashes have been replaced, and that never leads up. -/
structure Plain (path : String) : Prop where
  noHash : '#' ∉ path.toList
  noBackslash : '\\' ∉ path.toList
  noUp : ['.', '.'] ∉ steps path.toList

/-- Where the link in the document at a path is followed to when it is made for a
path: from the directory in which the document is written, as many directories up
as the path of the document has below those that both paths share, and then down
what is left of the other path before its first `#`. -/
def landing (path goal : String) : Place :=
  (Place.output.follow (directoryOf (standardize path).toList)).walk
    (stepsBetween (steps (directoryOf path.toList))
      (steps (goal.toList.takeWhile (· ≠ '#'))))

theorem toList_relative {target : String} {path anchor : List Char}
    (cut : Text.splitFirst? '#' target.toList = some (path, anchor)) (start : String) :
    (relative start target).toList =
      ['/'].intercalate (stepsBetween (steps start.toList) (steps path)) ++
        '#' :: anchor := by
  simp only [relative, cut, String.toList_append, toList_joined, String.toList_ofList]
  rfl

/-- The way to a path goes through proper segments: `..` and segments of the
path. -/
theorem clean_of_mem_stepsBetween {start goal segment : List Char}
    (member : segment ∈ stepsBetween (steps start) (steps goal)) :
    isStep segment = true ∧ '/' ∉ segment ∧ ('#' ∉ goal → '#' ∉ segment) := by
  rcases List.mem_append.mp member with up | down
  · rw [List.eq_of_mem_replicate up]
    exact ⟨by decide, by decide, fun _ => by decide⟩
  · have inGoal := List.mem_of_mem_drop down
    exact ⟨isStep_of_mem_steps inGoal, slash_not_mem_of_mem_steps inGoal,
      fun noHash inside => noHash (mem_of_mem_steps inGoal inside)⟩

/-- Where the link to a target leads: the way to the path before its first `#`. -/
theorem follow_relative {target : String} {path anchor : List Char}
    (cut : Text.splitFirst? '#' target.toList = some (path, anchor))
    (place : Place) (start : String) :
    place.follow ((relative start target).toList.takeWhile (· ≠ '#')) =
      place.walk (stepsBetween (steps start.toList) (steps path)) := by
  have noHash : '#' ∉ path := (Text.splitFirst?_eq_some_iff.mp cut).2
  have clean : ∀ char ∈ ['/'].intercalate (stepsBetween (steps start.toList) (steps path)),
      decide (char ≠ '#') = true := by
    intro char member
    refine decide_eq_true fun hash => ?_
    subst hash
    rcases Text.mem_of_mem_intercalate member with slash | ⟨segment, inWay, inside⟩
    · simp at slash
    · exact (clean_of_mem_stepsBetween inWay).2.2 noHash inside
  rw [toList_relative cut, List.takeWhile_append_of_pos clean,
    List.takeWhile_cons_of_neg (by simp), List.append_nil, Place.follow_eq_walk_steps,
    steps_intercalate fun segment member =>
      ⟨(clean_of_mem_stepsBetween member).1, (clean_of_mem_stepsBetween member).2.1⟩]

theorem toList_directory (path : String) :
    (directory path).toList = directoryOf path.toList :=
  String.toList_ofList

theorem standardize_of_not_mem {path : String} (noBackslash : '\\' ∉ path.toList) :
    standardize path = path := by
  have same : path.toList.map (fun char => if char = '\\' then '/' else char) =
      path.toList := by
    refine (List.map_congr_left fun char member => ?_).trans (List.map_id _)
    refine if_neg fun backslash => noBackslash ?_
    rwa [backslash] at member
  rw [standardize, same, String.ofList_toList]

/-- What comes before the first mark of a text with a marked end. -/
theorem splitFirst?_append (mark : Char) (before after : List Char) :
    ∃ rest, Text.splitFirst? mark (before ++ mark :: after) =
      some (before.takeWhile (· ≠ mark), rest) := by
  induction before with
  | nil => exact ⟨after, by simp [Text.splitFirst?]⟩
  | cons char before ih =>
      obtain ⟨rest, found⟩ := ih
      by_cases equal : char = mark
      · exact ⟨before ++ mark :: after, by simp [Text.splitFirst?, equal]⟩
      · exact ⟨rest, by simp [Text.splitFirst?, equal, found]⟩

/-- A link is followed to its landing. -/
theorem leadsTo_iff_landing {path goal anchor location : String} :
    LeadsTo (standardize path) (relative (directory path) (goal ++ "#" ++ anchor)) location ↔
      landing path goal = Place.output.follow location.toList := by
  obtain ⟨rest, cut⟩ := splitFirst?_append '#' goal.toList anchor.toList
  have whole : (goal ++ "#" ++ anchor).toList = goal.toList ++ '#' :: anchor.toList := by simp
  rw [← whole] at cut
  rw [LeadsTo, follow_relative cut, toList_directory, landing]

theorem takeWhile_of_not_mem {mark : Char} {chars : List Char} (noMark : mark ∉ chars) :
    chars.takeWhile (· ≠ mark) = chars :=
  List.takeWhile_eq_self_iff.mpr fun char member => by
    simpa using ne_of_mem_of_not_mem member noMark

/-- From a document whose path holds no backslash, the link to a path without `#`
arrives exactly when none of the directories to be left is `..`. -/
theorem landing_eq_follow_iff {path goal : String} (noBackslash : '\\' ∉ path.toList)
    (noHash : '#' ∉ goal.toList) :
    landing path goal = Place.output.follow goal.toList ↔
      ['.', '.'] ∉ (steps (directoryOf path.toList)).drop
        (commonSteps (steps (directoryOf path.toList)) (steps goal.toList)) := by
  rw [landing, takeWhile_of_not_mem noHash, standardize_of_not_mem noBackslash,
    Place.follow_eq_walk_steps, Place.follow_eq_walk_steps]
  exact walk_stepsBetween_iff (fun _ => isStep_of_mem_steps) fun _ => isStep_of_mem_steps

/-- A character other than a slash that a path holds is in one of its steps, unless it
is the dot of a segment that leads nowhere. -/
theorem exists_mem_steps {path : List Char} {char : Char} (held : char ∈ path)
    (noSlash : char ≠ '/') (noDot : char ≠ '.') : ∃ segment ∈ steps path, char ∈ segment := by
  rw [← Text.intercalate_pieces '/' path] at held
  rcases Text.mem_of_mem_intercalate held with slash | ⟨segment, piece, inside⟩
  · exact absurd (List.mem_singleton.mp slash) noSlash
  · refine ⟨segment, List.mem_filter.mpr ⟨piece, ?_⟩, inside⟩
    refine decide_eq_true ⟨?_, ?_⟩
    · rintro rfl
      simp at inside
    · rintro rfl
      exact noDot (List.mem_singleton.mp inside)

theorem mem_steps_of_mem_steps_directoryOf {path segment : List Char}
    (member : segment ∈ steps (directoryOf path)) : segment ∈ steps path := by
  unfold directoryOf at member
  split at member
  · next found =>
      obtain ⟨whole, _⟩ := Text.splitLast?_eq_some found
      rw [steps, Text.pieces_eq_splitOn, whole, List.splitOn,
        List.splitOnP_append_cons _ _ (by simp), List.filter_append,
        ← List.splitOn, ← Text.pieces_eq_splitOn]
      exact List.mem_append_left _ member
  · simp [steps, Text.pieces, isStep] at member

/-- Pieces without backslashes are pieces also after slashes have replaced the
backslashes: the first one stays the first one, and the others stay among the
others. -/
theorem mem_pieces_standardize (chars : List Char) :
    ∃ first others first' others', Text.pieces '/' chars = first :: others ∧
      Text.pieces '/' (chars.map fun char => if char = '\\' then '/' else char) =
        first' :: others' ∧
      ('\\' ∉ first → first' = first) ∧
      ∀ piece ∈ others, '\\' ∉ piece → piece ∈ others' := by
  induction chars with
  | nil => exact ⟨[], [], [], [], rfl, rfl, by simp, by simp⟩
  | cons char rest ih =>
      obtain ⟨first, others, first', others', split, split', same, kept⟩ := ih
      by_cases slash : char = '/'
      · subst slash
        refine ⟨[], first :: others, [], first' :: others', by simp [Text.pieces, split],
          by simp [Text.pieces, split'], by simp, ?_⟩
        intro piece member clean
        rcases List.mem_cons.mp member with rfl | later
        · exact same clean ▸ List.mem_cons_self
        · exact List.mem_cons_of_mem _ (kept piece later clean)
      · by_cases backslash : char = '\\'
        · subst backslash
          exact ⟨'\\' :: first, others, [], first' :: others', by simp [Text.pieces, split],
            by simp [Text.pieces, split'], by simp,
            fun piece member clean => List.mem_cons_of_mem _ (kept piece member clean)⟩
        · refine ⟨char :: first, others, char :: first', others',
            by simp [Text.pieces, split, slash],
            by simp [Text.pieces, split', slash, backslash], ?_, kept⟩
          intro clean
          rw [same fun inside => clean (List.mem_cons_of_mem _ inside)]

theorem mem_steps_standardize {path : String} {segment : List Char}
    (member : segment ∈ steps path.toList) (clean : '\\' ∉ segment) :
    segment ∈ steps (standardize path).toList := by
  obtain ⟨piece, step⟩ := List.mem_filter.mp member
  obtain ⟨first, others, first', others', split, split', same, kept⟩ :=
    mem_pieces_standardize path.toList
  refine List.mem_filter.mpr ⟨?_, step⟩
  rw [standardize, String.toList_ofList, split']
  rw [split] at piece
  rcases List.mem_cons.mp piece with rfl | later
  · exact same clean ▸ List.mem_cons_self
  · exact List.mem_cons_of_mem _ (kept segment later clean)

theorem Plain.noUp_directoryOf {path : String} (plain : Plain path) :
    ['.', '.'] ∉ steps (directoryOf path.toList) := fun member =>
  plain.noUp (mem_steps_of_mem_steps_directoryOf member)

/-- From a document at a plain path, a link goes to where the path before its first
`#` leads. -/
theorem landing_of_plain {path : String} (plain : Plain path) (goal : String) :
    landing path goal = Place.output.walk (steps (goal.toList.takeWhile (· ≠ '#'))) := by
  rw [landing, standardize_of_not_mem plain.noBackslash, Place.follow_eq_walk_steps]
  exact (walk_stepsBetween_iff (fun _ => isStep_of_mem_steps)
    fun _ => isStep_of_mem_steps).mpr fun member =>
      plain.noUp_directoryOf (List.mem_of_mem_drop member)

/-- Links between documents at plain paths arrive. -/
theorem landing_of_plain_of_plain {path goal : String} (plain : Plain path)
    (goalPlain : Plain goal) :
    landing path goal = Place.output.follow (standardize goal).toList := by
  rw [standardize_of_not_mem goalPlain.noBackslash,
    landing_eq_follow_iff plain.noBackslash goalPlain.noHash]
  exact fun member => plain.noUp_directoryOf (List.mem_of_mem_drop member)

/-- The path of a document that a link arrives at holds no `#` when its location
does not lead up. -/
theorem hash_not_mem_of_walk_eq {goal : String}
    (arrives : Place.output.walk (steps (goal.toList.takeWhile (· ≠ '#'))) =
      ⟨.working 0, steps (standardize goal).toList⟩) : '#' ∉ goal.toList := by
  intro held
  have heldStandard : '#' ∈ (standardize goal).toList := by
    rw [standardize, String.toList_ofList]
    exact List.mem_map.mpr ⟨'#', held, by decide⟩
  obtain ⟨segment, step, inside⟩ := exists_mem_steps heldStandard (by decide) (by decide)
  have reached : segment ∈ (Place.output.walk
      (steps (goal.toList.takeWhile (· ≠ '#')))).steps := by
    rw [arrives]
    exact step
  rcases Place.mem_steps_walk reached with start | followed
  · simp [Place.output] at start
  · simpa using List.mem_takeWhile_imp (mem_of_mem_steps followed inside)

/-- What standardizing leaves as it is holds no backslash. -/
theorem backslash_not_mem_of_steps_eq {goal : String}
    (same : steps goal.toList = steps (standardize goal).toList) : '\\' ∉ goal.toList := by
  intro held
  obtain ⟨segment, step, inside⟩ := exists_mem_steps held (by decide) (by decide)
  exact backslash_not_mem_standardize (mem_of_mem_steps (same ▸ step) inside)

/-- From a document at a plain path, the link to another document whose location
does not lead up arrives exactly when the path of that document is plain. -/
theorem landing_eq_follow_standardize_iff {path goal : String} (plain : Plain path)
    (noUp : ['.', '.'] ∉ steps (standardize goal).toList) :
    landing path goal = Place.output.follow (standardize goal).toList ↔ Plain goal := by
  refine ⟨?_, landing_of_plain_of_plain plain⟩
  have upFree : ['.', '.'] ∉ steps goal.toList := fun member =>
    noUp (mem_steps_standardize member (by decide))
  intro arrives
  rw [landing_of_plain plain, Place.follow_eq_walk_steps,
    walk_of_not_mem (fun _ => isStep_of_mem_steps) noUp] at arrives
  have noHash := hash_not_mem_of_walk_eq arrives
  rw [takeWhile_of_not_mem noHash, walk_of_not_mem (fun _ => isStep_of_mem_steps) upFree,
    Place.mk.injEq] at arrives
  exact ⟨noHash, backslash_not_mem_of_steps_eq arrives.2, upFree⟩

end DocumentPath

end ApiManual
