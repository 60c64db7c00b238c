import ApiManual.Proofs.Site.Below

/-!
# Locations of members

The location of a member is the directory for the members of its container and the file name of
the member behind it.  What a name adds to the way down is told by its separators alone, since
lower-casing neither makes nor moves them.  So as long as no name leads up, the directories for
members only lead down, and whatever is placed in them stays below the output directory.
-/

namespace ApiManual

namespace DocumentPath

/-- An extension makes a file name of whatever it is put behind. -/
structure IsExtension (extension : String) : Prop where
  nonempty : extension.toList ≠ []
  unmarked : ∀ mark ∈ ['.', '/', '\\'], mark ∉ extension.toList

section Members

variable {name extension container : String}

/-- The file name of a member is its name in lower case, a dot and the extension in lower case. -/
theorem exists_fileOf_eq (name extension : String) :
    ∃ stem context, fileOf name extension = stem ++ '.' :: Text.lowerAfter context extension.toList ∧
      Text.Lowers name.toList stem := by
  obtain ⟨stem, stemEq, lowers⟩ := Text.lowerAfter_append [] name.toList ('.' :: extension.toList)
  have dot : Text.IsLower '.' := by decide +kernel
  rw [fileOf, toList_withExtension, Text.lowerChars, stemEq, Text.lowerAfter, if_neg dot.1, dot.2]
  exact ⟨stem, _, rfl, lowers⟩

/-- What lower-casing makes of an extension is a proper ending. -/
theorem IsExtension.ending_of_lowers (valid : IsExtension extension) {ending : List Char}
    (lowers : Text.Lowers extension.toList ending) :
    ending ≠ [] ∧ ∀ mark ∈ ['.', '/', '\\'], mark ∉ ending := by
  constructor
  · intro none
    rw [none] at lowers
    exact valid.nonempty (lowers.eq_of_forall_lt (List.forall_mem_nil _))
  · intro mark marked inside
    have small : ∀ mark ∈ ['.', '/', '\\'], mark.toNat < 0x61 := by simp
    exact valid.unmarked mark marked (lowers.mem_of_lt inside (small mark marked))

/-- The file name of a member is its name in lower case, a dot and a proper ending. -/
theorem IsExtension.exists_fileOf (valid : IsExtension extension) (name : String) :
    ∃ stem ending, fileOf name extension = stem ++ '.' :: ending ∧
      Text.Lowers name.toList stem ∧ ending ≠ [] ∧ ∀ mark ∈ ['.', '/', '\\'], mark ∉ ending := by
  obtain ⟨stem, context, fileEq, lowers⟩ := exists_fileOf_eq name extension
  exact ⟨stem, _, fileEq, lowers, valid.ending_of_lowers (Text.lowers_lowerAfter context _)⟩

theorem append_dot_ne_up {last ending : List Char} (some : ending ≠ []) (noDot : '.' ∉ ending) :
    last ++ '.' :: ending ≠ ['.', '.'] := by
  intro up
  cases last with
  | nil =>
      have dot : ending = ['.'] := List.tail_eq_of_cons_eq up
      exact noDot (dot ▸ List.mem_cons_self)
  | cons first later =>
      have lengths := congrArg List.length up
      have positive : 0 < ending.length := List.length_pos_iff.mpr some
      simp only [List.cons_append, List.length_cons, List.length_append, List.length_nil] at lengths
      omega

/-- Neither the file name of a member nor the directory for its own members leads up when its
name does not. -/
theorem IsExtension.not_leadsUp (valid : IsExtension extension) (down : ¬ LeadsUp name.toList) :
    ¬ LeadsUp (fileOf name extension) ∧ ¬ LeadsUp (directoryOf (fileOf name extension)) ∧
      ¬ LeadsUp (stemOf (fileOf name extension)) := by
  obtain ⟨stem, ending, fileEq, lowers, some, unmarked⟩ := valid.exists_fileOf name
  have noDot : '.' ∉ ending := unmarked '.' (by decide)
  have noSlash : '/' ∉ '.' :: ending := by
    simpa using unmarked '/' (by decide)
  have noBackslash : '\\' ∉ '.' :: ending := by
    simpa using unmarked '\\' (by decide)
  have stemDown : ¬ LeadsUp stem := fun up => down (up.of_lowers lowers)
  have tailDown : ¬ LeadsUp ('.' :: ending) := by
    rw [LeadsUp, slashed_of_not_mem noBackslash, pieces_of_not_mem noSlash, List.mem_singleton]
    exact fun up => @append_dot_ne_up [] ending some noDot up.symm
  rw [leadsUp_iff_directoryOf_or_baseOf, not_or] at stemDown
  rw [fileEq]
  refine ⟨fun up => ?_, ?_, ?_⟩
  · rw [LeadsUp, slashed_append, slashed_of_not_mem noBackslash] at up
    rcases mem_pieces_append noSlash up with inStem | ⟨last, same⟩
    · exact down (LeadsUp.of_lowers lowers inStem)
    · exact append_dot_ne_up some noDot same.symm
  · rw [directoryOf_append_of_not_mem noSlash]
    exact stemDown.1
  · rw [stemOf, baseOf_append_of_not_mem noSlash, Text.splitLast?_append noDot]
    split
    · next hidden =>
        rw [(Prod.mk.inj (Option.some.inj hidden)).1]
        exact tailDown
    · next none => cases none
    · next shown =>
        rw [← (Prod.mk.inj (Option.some.inj shown)).1]
        exact stemDown.2

theorem IsExtension.isStep_withExtension (valid : IsExtension extension) (name : String) :
    isStep (withExtension name extension).toList = true := by
  have length : 2 ≤ (withExtension name extension).toList.length := by
    have positive := List.length_pos_iff.mpr valid.nonempty
    rw [toList_withExtension, List.length_append, List.length_cons]
    omega
  refine decide_eq_true ⟨?_, ?_⟩
  · intro empty
    rw [empty] at length
    cases length
  · intro dot
    rw [dot] at length
    exact absurd length (by decide)

theorem IsExtension.toList_member (valid : IsExtension extension) :
    (member container name extension).toList =
      if home container = [] then fileOf name extension
      else home container ++ '/' :: fileOf name extension :=
  toList_member_of_isStep (valid.isStep_withExtension name)

/-- Lower-casing is done once: the directory for the members of a member is what its own path
gives. -/
theorem home_member_eq :
    home (member container name extension) =
      ['/'].intercalate ([directoryOf (member container name extension).toList,
        stemOf (member container name extension).toList].filter isStep) := by
  have slash : Text.IsLower '/' := by decide +kernel
  have lower : ∀ char ∈ (member container name extension).toList, Text.IsLower char := by
    intro char held
    rw [member, Text.toLower, String.toList_ofList] at held
    exact Text.isLower_of_mem_lowerChars held
  rw [home]
  generalize (member container name extension).toList = path at lower
  refine Text.lowerChars_of_isLower fun char inside => ?_
  rcases Text.mem_of_mem_intercalate inside with between | ⟨part, kept, held⟩
  · exact List.mem_singleton.mp between ▸ slash
  · have listed := (List.mem_filter.mp kept).1
    simp only [List.mem_cons, List.not_mem_nil, or_false] at listed
    rcases listed with rfl | rfl
    · exact lower char (directoryOf_subset held)
    · exact lower char (stemOf_subset held)

/-- The way to the members of a member goes to the members of its container, then along the
directory of its own file name and into its stem. -/
theorem IsExtension.steps_home_member (valid : IsExtension extension) :
    steps (slashed (home (member container name extension))) =
      steps (slashed (home container)) ++
        (steps (slashed (directoryOf (fileOf name extension))) ++
          steps (slashed (stemOf (fileOf name extension)))) := by
  have nowhere : steps (slashed []) = [] := by decide
  rw [home_member_eq, steps_join, valid.toList_member]
  by_cases noHome : home container = []
  · rw [if_pos noHome, noHome, nowhere, List.nil_append]
  · rw [if_neg noHome]
    obtain ⟨directory, stem⟩ := parts_append_slash (home container) (fileOf name extension)
    rw [stem, ← List.append_assoc]
    rcases directory with ⟨top, none⟩ | below
    · rw [top, none, nowhere, List.append_nil]
    · rw [below, steps_append_slash]

/-! ## Members below -/

/-- A file in a directory stays below where the directory is: the path is relative and never
leads above where it starts. -/
structure Fits (directory file : List Char) : Prop where
  relative : ¬ BeginsWithSeparator (if directory = [] then file else directory)
  neverAbove : (Place.output.walk
    (steps (slashed directory) ++ steps (slashed file))).origin = .working 0

/-- A member stays below exactly when its file fits in the directory for the members of its
container. -/
theorem IsExtension.staysBelow_member_iff (valid : IsExtension extension) :
    StaysBelow (standardize (member container name extension)) ↔
      Fits (home container) (fileOf name extension) := by
  have split : ∀ {directory file : List Char}, Fits directory file ↔
      ¬ BeginsWithSeparator (if directory = [] then file else directory) ∧
        (Place.output.walk (steps (slashed directory) ++ steps (slashed file))).origin =
          .working 0 :=
    ⟨fun fits => ⟨fits.relative, fits.neverAbove⟩, fun ⟨relative, inside⟩ => ⟨relative, inside⟩⟩
  have nowhere : steps (slashed []) = [] := by decide
  rw [staysBelow_iff, toList_standardize, valid.toList_member, split, Ne, head?_slashed_eq_iff]
  by_cases noHome : home container = []
  · rw [if_pos noHome, if_pos noHome, noHome, nowhere, List.nil_append]
  · obtain ⟨first, rest, homeEq⟩ := List.exists_cons_of_ne_nil noHome
    rw [if_neg noHome, if_neg noHome, steps_append_slash, homeEq]
    rfl

theorem backslash_not_mem_sourceStem {fileName : String} : '\\' ∉ sourceStem fileName :=
  fun inside => backslash_not_mem_standardize (stemOf_subset inside)

/-- The location of an entry document is one name. -/
theorem IsExtension.staysBelow_entry (valid : IsExtension extension) {fileName location : String}
    (placed : entry? fileName extension = some location) : StaysBelow (standardize location) := by
  obtain ⟨nonempty, locationEq⟩ := toList_entry placed
  have stemClean : '/' ∉ sourceStem fileName := slash_not_mem_stemOf
  have noSlash : '/' ∉ location.toList := by
    rw [locationEq]
    simpa [stemClean] using valid.unmarked '/' (by decide)
  have noBackslash : '\\' ∉ location.toList := by
    rw [locationEq]
    simpa [backslash_not_mem_sourceStem] using valid.unmarked '\\' (by decide)
  rw [staysBelow_iff, standardize_of_not_mem noBackslash, steps, pieces_of_not_mem noSlash]
  refine ⟨fun begins => noSlash (List.mem_of_head? begins), ?_⟩
  refine origin_walk_of_not_mem (fun segment kept => (List.mem_filter.mp kept).2) fun up => ?_
  have whole := List.mem_singleton.mp (List.mem_filter.mp up).1
  rw [locationEq] at whole
  exact append_dot_ne_up valid.nonempty (valid.unmarked '.' (by decide)) whole.symm

theorem beginsWithSeparator_append {front : List Char} (some : front ≠ []) (rest : List Char) :
    BeginsWithSeparator (front ++ rest) ↔ BeginsWithSeparator front := by
  obtain ⟨first, later, rfl⟩ := List.exists_cons_of_ne_nil some
  exact Iff.rfl

/-- A directory for members that leads down only. -/
structure Descends (directory : List Char) : Prop where
  step : isStep directory = true
  relative : ¬ BeginsWithSeparator directory
  down : ¬ LeadsUp directory

theorem Descends.ne_nil {directory : List Char} (descends : Descends directory) :
    directory ≠ [] :=
  (of_decide_eq_true descends.step).1

/-- The directory for the members of an entry point leads down when its source file is not named
for a directory. -/
theorem Descends.entry (valid : IsExtension extension) {fileName location : String}
    (placed : entry? fileName extension = some location)
    (named : sourceStem fileName ∉ [['.'], ['.', '.']]) : Descends (home location) := by
  have lowers := Text.lowers_lowerAfter [] (sourceStem fileName)
  rw [← Text.lowerChars] at lowers
  have stemClean : '/' ∉ sourceStem fileName := slash_not_mem_stemOf
  have noSlash : '/' ∉ Text.lowerChars (sourceStem fileName) := fun inside =>
    stemClean (lowers.mem_of_lt inside (by decide))
  have noBackslash : '\\' ∉ Text.lowerChars (sourceStem fileName) := fun inside =>
    backslash_not_mem_sourceStem (lowers.mem_of_lt inside (by decide))
  -- Dots are no letters: a stem that is lowered to dots has been dots before.
  have lowNamed : Text.lowerChars (sourceStem fileName) ∉ [['.'], ['.', '.']] := by
    intro dots
    have plain : ∀ char ∈ Text.lowerChars (sourceStem fileName), char.toNat < 0x61 := by
      rcases List.mem_pair.mp dots with one | two
      · simp [one]
      · simp [two]
    rw [← lowers.eq_of_forall_lt plain] at dots
    exact named dots
  have step : isStep (Text.lowerChars (sourceStem fileName)) = true := by
    refine decide_eq_true ⟨?_, fun dot => lowNamed (List.mem_pair.mpr (.inl dot))⟩
    rw [Ne, Text.lowerChars_eq_nil_iff]
    exact (toList_entry placed).1
  rw [home_entry placed (valid.unmarked '/' (by decide)) (valid.unmarked '.' (by decide)) step]
  refine ⟨step, ?_, fun up => ?_⟩
  · rintro (slash | backslash)
    · exact noSlash (List.mem_of_head? slash)
    · exact noBackslash (List.mem_of_head? backslash)
  · rw [LeadsUp, slashed_of_not_mem noBackslash, pieces_of_not_mem noSlash,
      List.mem_singleton] at up
    exact lowNamed (List.mem_pair.mpr (.inr up.symm))

/-- The directory for the members of a member begins with the one for the members of its
container. -/
theorem IsExtension.exists_home_member (valid : IsExtension extension)
    (homeStep : isStep (home container) = true) :
    ∃ after, home (member container name extension) = home container ++ after ∧
      isStep (home container ++ after) = true := by
  have someHome : home container ≠ [] := (of_decide_eq_true homeStep).1
  have pathEq := @IsExtension.toList_member name extension container valid
  rw [if_neg someHome] at pathEq
  -- The directory of the path is the directory of the container with something behind it.
  obtain ⟨rest, front, step⟩ : ∃ rest,
      directoryOf (member container name extension).toList = home container ++ rest ∧
        isStep (home container ++ rest) = true := by
    rw [pathEq]
    rcases (parts_append_slash (home container) (fileOf name extension)).1 with
      ⟨top, _⟩ | below
    · refine ⟨[], ?_, ?_⟩
      · rw [top, List.append_nil]
      · rw [List.append_nil]
        exact homeStep
    · exact ⟨_, below, isStep_append_slash⟩
  rw [home_member_eq, front, List.filter_cons_of_pos step]
  by_cases stemStep : isStep (stemOf (member container name extension).toList) = true
  · refine ⟨rest ++ '/' :: stemOf (member container name extension).toList, ?_, ?_⟩
    · rw [List.filter_cons_of_pos stemStep, List.filter_nil, List.intercalate_cons_cons,
        List.intercalate_singleton, List.append_assoc, List.append_assoc, List.singleton_append]
    · rw [← List.append_assoc]
      exact isStep_append_slash
  · refine ⟨rest, ?_, step⟩
    rw [List.filter_cons_of_neg stemStep, List.filter_nil, List.intercalate_singleton]

/-- Below a directory that leads down, a member whose name does not lead up has a directory that
leads down. -/
theorem Descends.member (valid : IsExtension extension) (descends : Descends (home container))
    (down : ¬ LeadsUp name.toList) : Descends (home (member container name extension)) := by
  obtain ⟨_, directoryDown, stemDown⟩ := valid.not_leadsUp down
  obtain ⟨after, homeEq, homeStep⟩ :=
    @IsExtension.exists_home_member name extension container valid descends.step
  refine ⟨homeEq ▸ homeStep, ?_, ?_⟩
  · rw [homeEq, beginsWithSeparator_append descends.ne_nil]
    exact descends.relative
  · rw [← up_mem_steps_iff, valid.steps_home_member, List.mem_append, List.mem_append,
      up_mem_steps_iff, up_mem_steps_iff, up_mem_steps_iff]
    exact not_or.mpr ⟨descends.down, not_or.mpr ⟨directoryDown, stemDown⟩⟩

/-- In a directory that leads down, the file of a member whose name does not lead up stays
below. -/
theorem Descends.fits (valid : IsExtension extension) {directory : List Char}
    (descends : Descends directory) (down : ¬ LeadsUp name.toList) :
    Fits directory (fileOf name extension) := by
  refine ⟨?_, origin_walk_of_not_mem (fun segment inside => ?_) ?_⟩
  · rw [if_neg descends.ne_nil]
    exact descends.relative
  · rcases List.mem_append.mp inside with inDirectory | inFile
    · exact isStep_of_mem_steps inDirectory
    · exact isStep_of_mem_steps inFile
  · rw [List.mem_append, up_mem_steps_iff, up_mem_steps_iff]
    exact not_or.mpr ⟨descends.down, (valid.not_leadsUp down).1⟩

end Members

end DocumentPath

end ApiManual
