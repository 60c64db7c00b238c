import ApiManual.Proofs.Site.Walking

/-!
# Locations below a directory

A location is joined to the directory that documents are written to.  It stays below that
directory when it is relative and none of its segments leads above the place it starts from.
Names are taken into locations as they are, with their separators, so what counts is which parts
of a name between separators lead up.
-/

namespace ApiManual

/-! ## Walks below a place -/

namespace Place

variable {place : Place} {segment : List Char} {segments : List (List Char)}

/-- A place is another one or below it. -/
def IsBelow (place top : Place) : Prop :=
  place.origin = top.origin ∧ top.steps <+: place.steps

instance (place top : Place) : Decidable (place.IsBelow top) :=
  inferInstanceAs (Decidable (_ ∧ _))

/-- Nothing leads back down to the start from above it. -/
theorem origin_eq_of_enter (inside : (place.enter segment).origin = .working 0) :
    place.origin = .working 0 := by
  unfold enter at inside
  split at inside
  · exact inside
  · split at inside
    · obtain ⟨origin, steps⟩ := place
      cases steps with
      | nil => cases origin <;> cases inside
      | cons first later => cases origin <;> exact inside
    · exact inside

theorem origin_eq_of_walk (inside : (place.walk segments).origin = .working 0) :
    place.origin = .working 0 := by
  induction segments generalizing place with
  | nil => exact inside
  | cons segment rest ih => exact origin_eq_of_enter (ih inside)

/-- Segments that do not lead above where they start lead down from every place in the same
way. -/
theorem walk_eq_of_origin (inside : (output.walk segments).origin = .working 0) (top : Place) :
    top.walk segments = ⟨top.origin, top.steps ++ (output.walk segments).steps⟩ := by
  induction segments using List.reverseRecOn with
  | nil => simp [output]
  | append_singleton segments last ih =>
      rw [walk_append, walk_cons, walk_nil] at inside ⊢
      have before := ih (origin_eq_of_enter inside)
      rw [walk_append, walk_cons, walk_nil, before]
      generalize output.walk segments = reached at inside before ⊢
      obtain ⟨origin, names⟩ := reached
      unfold enter at inside ⊢
      split
      · rfl
      · next moves =>
          rw [if_neg moves] at inside
          split
          · next up =>
              rw [if_pos up] at inside
              cases names with
              | nil => cases origin <;> cases inside
              | cons first later =>
                  obtain ⟨topOrigin, names⟩ := top
                  have dropped : (names ++ first :: later).dropLast =
                      names ++ (first :: later).dropLast :=
                    List.dropLast_append_of_ne_nil (List.cons_ne_nil _ _)
                  cases names with
                  | nil => cases topOrigin <;> cases origin <;> rfl
                  | cons name names => cases topOrigin <;> cases origin <;> exact congrArg _ dropped
          · simp

theorem isBelow_walk (inside : (output.walk segments).origin = .working 0) (top : Place) :
    (top.walk segments).IsBelow top := by
  rw [walk_eq_of_origin inside top]
  exact ⟨rfl, List.prefix_append _ _⟩

end Place

namespace DocumentPath

/-! ## Staying below -/

/-- A location stays below the directory that it is joined to: it is relative, and following its
segments never leads above where they start. -/
structure StaysBelow (location : String) : Prop where
  relative : location.toList.head? ≠ some '/'
  neverAbove : ∀ before, before <+: Text.pieces '/' location.toList →
    (Place.output.walk before).origin = .working 0

theorem staysBelow_iff {location : String} :
    StaysBelow location ↔ location.toList.head? ≠ some '/' ∧
      (Place.output.walk (steps location.toList)).origin = .working 0 := by
  rw [← Place.follow_eq_walk_steps, Place.follow]
  constructor
  · intro stays
    exact ⟨stays.relative, stays.neverAbove _ (List.prefix_refl _)⟩
  · rintro ⟨relative, inside⟩
    refine ⟨relative, ?_⟩
    rintro before ⟨after, whole⟩
    rw [← whole, Place.walk_append] at inside
    exact Place.origin_eq_of_walk inside

instance (location : String) : Decidable (StaysBelow location) :=
  decidable_of_iff _ staysBelow_iff.symm

/-- The characters of a path with slashes for backslashes. -/
def slashed (path : List Char) : List Char :=
  path.map fun char => if char = '\\' then '/' else char

theorem toList_standardize (path : String) : (standardize path).toList = slashed path.toList :=
  String.toList_ofList

theorem slashed_append (left right : List Char) :
    slashed (left ++ right) = slashed left ++ slashed right :=
  List.map_append

theorem slashed_of_not_mem {path : List Char} (clean : '\\' ∉ path) : slashed path = path := by
  refine (List.map_congr_left fun char member => ?_).trans (List.map_id _)
  refine if_neg fun backslash => clean ?_
  rwa [backslash] at member

/-- A path begins with a separator. -/
def BeginsWithSeparator (path : List Char) : Prop :=
  path.head? = some '/' ∨ path.head? = some '\\'

instance (path : List Char) : Decidable (BeginsWithSeparator path) :=
  inferInstanceAs (Decidable (_ ∨ _))

theorem head?_slashed_eq_iff {path : List Char} :
    (slashed path).head? = some '/' ↔ BeginsWithSeparator path := by
  cases path with
  | nil => simp [slashed, BeginsWithSeparator]
  | cons char rest =>
      by_cases backslash : char = '\\'
      · simp [slashed, BeginsWithSeparator, backslash]
      · simp [slashed, BeginsWithSeparator, backslash]

/-- A part of a path leads up, whichever separators it stands between. -/
def LeadsUp (path : List Char) : Prop := ['.', '.'] ∈ Text.pieces '/' (slashed path)

instance (path : List Char) : Decidable (LeadsUp path) :=
  inferInstanceAs (Decidable (_ ∈ _))

theorem up_mem_steps_iff {path : List Char} : ['.', '.'] ∈ steps (slashed path) ↔ LeadsUp path := by
  rw [steps, List.mem_filter]
  exact and_iff_left (by decide)

/-- Where nothing leads up, nothing leads above the start. -/
theorem origin_walk_of_not_mem {segments : List (List Char)}
    (each : ∀ segment ∈ segments, isStep segment = true) (down : ['.', '.'] ∉ segments) :
    (Place.output.walk segments).origin = .working 0 := by
  rw [walk_of_not_mem each down]

/-! ## Parts of paths -/

theorem pieces_of_not_mem {path : List Char} (clean : '/' ∉ path) :
    Text.pieces '/' path = [path] := by
  rw [Text.pieces_eq_splitOn, List.splitOn_eq_singleton clean]

theorem slashed_append_slash (left right : List Char) :
    slashed (left ++ '/' :: right) = slashed left ++ '/' :: slashed right :=
  slashed_append left ('/' :: right)

theorem steps_append_slash (left right : List Char) :
    steps (slashed (left ++ '/' :: right)) = steps (slashed left) ++ steps (slashed right) := by
  rw [slashed_append_slash, steps, Text.pieces_append_cons, List.filter_append, ← steps, ← steps]

theorem leadsUp_append_slash {left right : List Char} :
    LeadsUp (left ++ '/' :: right) ↔ LeadsUp left ∨ LeadsUp right := by
  rw [LeadsUp, slashed_append_slash, Text.pieces_append_cons, List.mem_append, ← LeadsUp, ← LeadsUp]

/-- What is put behind a path without a slash of its own lengthens the last piece. -/
theorem mem_pieces_append {path tail segment : List Char} (clean : '/' ∉ tail)
    (member : segment ∈ Text.pieces '/' (path ++ tail)) :
    segment ∈ Text.pieces '/' path ∨ ∃ last, segment = last ++ tail := by
  cases found : Text.splitLast? '/' path with
  | none =>
      have noSlash : '/' ∉ path ++ tail := by
        rw [List.mem_append, not_or]
        exact ⟨Text.splitLast?_eq_none_iff.mp found, clean⟩
      rw [pieces_of_not_mem noSlash, List.mem_singleton] at member
      exact .inr ⟨path, member⟩
  | some parts =>
      obtain ⟨directory, base⟩ := parts
      obtain ⟨rfl, baseClean⟩ := Text.splitLast?_eq_some found
      have noSlash : '/' ∉ base ++ tail := by
        rw [List.mem_append, not_or]
        exact ⟨baseClean, clean⟩
      rw [List.append_assoc, List.cons_append, Text.pieces_append_cons, List.mem_append,
        pieces_of_not_mem noSlash, List.mem_singleton] at member
      rw [Text.pieces_append_cons]
      exact member.imp (List.mem_append_left _) fun last => ⟨base, last⟩

/-! ## Names in lower case -/

theorem pieces_append_of_not_mem {front : List Char} (clean : '/' ∉ front) (rest : List Char) :
    Text.pieces '/' (front ++ rest) = (Text.pieces '/' rest).modifyHead (front ++ ·) := by
  induction front with
  | nil =>
      rw [List.nil_append]
      cases Text.pieces '/' rest <;> rfl
  | cons char front ih =>
      rw [List.mem_cons, not_or] at clean
      rw [List.cons_append, Text.pieces_cons_of_ne (Ne.symm clean.1), ih clean.2]
      cases Text.pieces '/' rest <;> rfl

theorem forall₂_modifyHead {related : List Char → List Char → Prop}
    {left right : List (List Char)} {ahead before : List Char → List Char}
    (each : ∀ piece other, related piece other → related (ahead piece) (before other))
    (all : List.Forall₂ related left right) :
    List.Forall₂ related (left.modifyHead ahead) (right.modifyHead before) := by
  cases all with
  | nil => exact .nil
  | cons first others => exact .cons (each _ _ first) others

/-- Lower-casing neither makes nor moves separators. -/
theorem forall₂_pieces_of_lowers {chars made : List Char} (lowers : Text.Lowers chars made) :
    List.Forall₂ Text.Lowers (Text.pieces '/' (slashed chars)) (Text.pieces '/' (slashed made)) := by
  induction lowers with
  | nil => exact .cons .nil .nil
  | @same char rest made _ ih =>
      by_cases separates : (if char = '\\' then '/' else char) = '/'
      · have cut : ∀ chars, Text.pieces '/' (slashed (char :: chars)) =
            [] :: Text.pieces '/' (slashed chars) := by
          intro chars
          rw [slashed, List.map_cons, separates, ← slashed]
          exact Text.pieces_append_cons '/' [] _
        rw [cut, cut]
        exact .cons .nil ih
      · have joined : ∀ chars, Text.pieces '/' (slashed (char :: chars)) =
            (Text.pieces '/' (slashed chars)).modifyHead (char :: ·) := by
          intro chars
          have noBackslash : char ≠ '\\' := fun backslash => separates (if_pos backslash)
          rw [if_neg noBackslash] at separates
          rw [slashed, List.map_cons, if_neg noBackslash, ← slashed,
            Text.pieces_cons_of_ne separates]
        rw [joined, joined]
        exact forall₂_modifyHead (fun _ _ => .same char) ih
  | @small char image rest made some letters unmarked _ ih =>
      have noBackslash : char ≠ '\\' := fun equal => unmarked (by simp [equal])
      have noSlash : char ≠ '/' := fun equal => unmarked (by simp [equal])
      have small : ∀ mark, mark.toNat < 0x61 → mark ∉ image := fun mark large inside =>
        absurd (letters mark inside) (Nat.not_le_of_lt large)
      rw [slashed, List.map_cons, if_neg noBackslash, ← slashed, Text.pieces_cons_of_ne noSlash,
        slashed_append, slashed_of_not_mem (small '\\' (by decide)),
        pieces_append_of_not_mem (small '/' (by decide))]
      exact forall₂_modifyHead (fun _ _ => .small some letters unmarked) ih

/-- A name in lower case leads up only where the name does. -/
theorem LeadsUp.of_lowers {chars made : List Char} (lowers : Text.Lowers chars made)
    (up : LeadsUp made) : LeadsUp chars := by
  have all := forall₂_pieces_of_lowers lowers
  rw [LeadsUp] at up ⊢
  generalize Text.pieces '/' (slashed chars) = pieces at all ⊢
  generalize Text.pieces '/' (slashed made) = madePieces at all up
  induction all with
  | nil => cases up
  | cons first _ ih =>
      rcases List.mem_cons.mp up with rfl | later
      · rw [first.eq_of_forall_lt (by simp)]
        exact List.mem_cons_self
      · exact List.mem_cons_of_mem _ (ih later)

/-! ## Directory and base -/

/-- A tail without separators belongs to the last part. -/
theorem splitLast?_append_of_not_mem {mark : Char} {tail : List Char} (clean : mark ∉ tail)
    (path : List Char) :
    Text.splitLast? mark (path ++ tail) =
      (Text.splitLast? mark path).map fun (before, after) => (before, after ++ tail) := by
  cases found : Text.splitLast? mark path with
  | none =>
      refine Text.splitLast?_eq_none_iff.mpr ?_
      rw [List.mem_append, not_or]
      exact ⟨Text.splitLast?_eq_none_iff.mp found, clean⟩
  | some parts =>
      obtain ⟨before, after⟩ := parts
      obtain ⟨rfl, afterClean⟩ := Text.splitLast?_eq_some found
      rw [List.append_assoc, List.cons_append]
      refine Text.splitLast?_append ?_ before
      rw [List.mem_append, not_or]
      exact ⟨afterClean, clean⟩

theorem directoryOf_append_of_not_mem {tail : List Char} (clean : '/' ∉ tail) (path : List Char) :
    directoryOf (path ++ tail) = directoryOf path := by
  rw [directoryOf, splitLast?_append_of_not_mem clean, directoryOf]
  cases Text.splitLast? '/' path <;> rfl

theorem baseOf_append_of_not_mem {tail : List Char} (clean : '/' ∉ tail) (path : List Char) :
    baseOf (path ++ tail) = baseOf path ++ tail := by
  rw [baseOf, splitLast?_append_of_not_mem clean, baseOf]
  cases Text.splitLast? '/' path <;> rfl

theorem leadsUp_iff_directoryOf_or_baseOf {path : List Char} :
    LeadsUp path ↔ LeadsUp (directoryOf path) ∨ LeadsUp (baseOf path) := by
  have nowhere : ¬ LeadsUp [] := by decide
  unfold directoryOf baseOf
  cases found : Text.splitLast? '/' path with
  | none => exact (or_iff_right nowhere).symm
  | some parts =>
      rw [(Text.splitLast?_eq_some found).1]
      exact leadsUp_append_slash

/-- Below a directory, a path keeps its own directory and stem. -/
theorem parts_append_slash (top path : List Char) :
    (directoryOf (top ++ '/' :: path) = top ∧ directoryOf path = [] ∨
        directoryOf (top ++ '/' :: path) = top ++ '/' :: directoryOf path) ∧
      stemOf (top ++ '/' :: path) = stemOf path := by
  cases found : Text.splitLast? '/' path with
  | none =>
      have clean := Text.splitLast?_eq_none_iff.mp found
      exact ⟨.inl ⟨directoryOf_append clean, directoryOf_of_not_mem clean⟩, stemOf_append clean⟩
  | some parts =>
      obtain ⟨directory, base⟩ := parts
      obtain ⟨rfl, clean⟩ := Text.splitLast?_eq_some found
      have whole : top ++ '/' :: (directory ++ '/' :: base) =
          (top ++ '/' :: directory) ++ '/' :: base := by simp
      rw [whole, directoryOf_append clean, directoryOf_append clean, stemOf_append clean,
        stemOf_append clean]
      exact ⟨.inr rfl, rfl⟩

theorem steps_of_not_isStep {segment : List Char} (still : ¬ isStep segment = true) :
    steps (slashed segment) = [] := by
  have nowhere : segment = [] ∨ segment = ['.'] := by
    simpa [isStep, Decidable.imp_iff_not_or] using still
  rcases nowhere with rfl | rfl <;> decide

/-- Parts that are put together lead where they lead one after the other. -/
theorem steps_join (first second : List Char) :
    steps (slashed (['/'].intercalate ([first, second].filter isStep))) =
      steps (slashed first) ++ steps (slashed second) := by
  have nowhere : steps (slashed []) = [] := by decide
  by_cases firstStep : isStep first = true
  · by_cases secondStep : isStep second = true
    · rw [List.filter_cons_of_pos firstStep, List.filter_cons_of_pos secondStep, List.filter_nil,
        List.intercalate_cons_cons, List.intercalate_singleton, List.append_assoc,
        List.singleton_append, steps_append_slash]
    · rw [List.filter_cons_of_pos firstStep, List.filter_cons_of_neg secondStep, List.filter_nil,
        List.intercalate_singleton, steps_of_not_isStep secondStep, List.append_nil]
  · rw [List.filter_cons_of_neg firstStep, steps_of_not_isStep firstStep, List.nil_append]
    by_cases secondStep : isStep second = true
    · rw [List.filter_cons_of_pos secondStep, List.filter_nil, List.intercalate_singleton]
    · rw [List.filter_cons_of_neg secondStep, List.filter_nil, List.intercalate_nil,
        steps_of_not_isStep secondStep, nowhere]

end DocumentPath

end ApiManual
