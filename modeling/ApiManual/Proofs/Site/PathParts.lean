import ApiManual.Proofs.Text.Lines
import ApiManual.Proofs.Text.LowerCase
import ApiManual.Site.Path
import Mathlib.Data.List.Basic

/-!
# Parts of document paths

A member is placed in a directory that is named for the path of its container, and what its
path keeps of the member is its file name in lower case.  As long as no part of a path
disappears or falls into several segments, the path can be taken apart again: its directory is
that of the container, and the directory for the members of the member adds its stem.
-/

namespace ApiManual

namespace DocumentPath

variable {path directory base : List Char}

/-! ## Directory, base and stem -/

theorem directoryOf_subset : directoryOf path ⊆ path := by
  simp only [directoryOf]
  split
  · next found =>
      rw [(Text.splitLast?_eq_some found).1]
      exact List.subset_append_left _ _
  · exact List.nil_subset _

theorem baseOf_subset : baseOf path ⊆ path := by
  simp only [baseOf]
  split
  · next found =>
      rw [(Text.splitLast?_eq_some found).1]
      exact fun char member => List.mem_append_right _ (List.mem_cons_of_mem _ member)
  · exact List.Subset.refl _

theorem stemOf_subset_baseOf : stemOf path ⊆ baseOf path := by
  simp only [stemOf]
  split
  · exact List.Subset.refl _
  · exact List.Subset.refl _
  · next found =>
      rw [(Text.splitLast?_eq_some found).1]
      exact List.subset_append_left _ _

theorem stemOf_subset : stemOf path ⊆ path :=
  List.Subset.trans stemOf_subset_baseOf baseOf_subset

theorem slash_not_mem_baseOf : '/' ∉ baseOf path := by
  simp only [baseOf]
  split
  · next found => exact (Text.splitLast?_eq_some found).2
  · next none => exact Text.splitLast?_eq_none_iff.mp none

theorem slash_not_mem_stemOf : '/' ∉ stemOf path := fun member =>
  slash_not_mem_baseOf (stemOf_subset_baseOf member)

theorem directoryOf_of_not_mem (clean : '/' ∉ path) : directoryOf path = [] := by
  simp only [directoryOf, Text.splitLast?_eq_none_iff.mpr clean]

theorem baseOf_of_not_mem (clean : '/' ∉ path) : baseOf path = path := by
  simp only [baseOf, Text.splitLast?_eq_none_iff.mpr clean]

theorem directoryOf_append (clean : '/' ∉ base) :
    directoryOf (directory ++ '/' :: base) = directory := by
  simp only [directoryOf, Text.splitLast?_append clean]

theorem stemOf_append (clean : '/' ∉ base) :
    stemOf (directory ++ '/' :: base) = stemOf base := by
  have sameBase : baseOf (directory ++ '/' :: base) = baseOf base := by
    rw [baseOf_of_not_mem clean]
    simp only [baseOf, Text.splitLast?_append clean]
  rw [stemOf, stemOf, sameBase]

/-- A text with one part after its last mark is taken apart in one way. -/
theorem append_mark_inj {mark : Char} {left right leftBase rightBase : List Char}
    (leftClean : mark ∉ leftBase) (rightClean : mark ∉ rightBase)
    (same : left ++ mark :: leftBase = right ++ mark :: rightBase) :
    left = right ∧ leftBase = rightBase := by
  have cut := Text.splitLast?_append leftClean left
  rw [same, Text.splitLast?_append rightClean right] at cut
  cases cut
  exact ⟨rfl, rfl⟩

theorem stemOf_withExtension {stem extension : List Char} (nonempty : stem ≠ [])
    (stemClean : '/' ∉ stem) (noSlash : '/' ∉ extension) (noDot : '.' ∉ extension) :
    stemOf (stem ++ '.' :: extension) = stem := by
  have clean : '/' ∉ stem ++ '.' :: extension := by simp [stemClean, noSlash]
  obtain ⟨first, rest, rfl⟩ := List.exists_cons_of_ne_nil nonempty
  simp only [stemOf, baseOf_of_not_mem clean, Text.splitLast?_append noDot]

theorem backslash_not_mem_standardize {path : String} :
    '\\' ∉ (standardize path).toList := by
  rw [standardize, String.toList_ofList, List.mem_map]
  rintro ⟨char, _, made⟩
  split at made
  · exact absurd made (by decide)
  · next differs => exact differs made

theorem toList_withExtension (name extension : String) :
    (withExtension name extension).toList = name.toList ++ '.' :: extension.toList := by
  simp [withExtension]

/-- A segment that leads somewhere in lower case does so as it is written. -/
theorem isStep_of_isStep_lowerChars {segment : List Char}
    (step : isStep (Text.lowerChars segment) = true) : isStep segment = true := by
  refine decide_eq_true ⟨?_, ?_⟩
  · rintro rfl
    exact absurd step (by decide)
  · rintro rfl
    exact absurd step (by decide +kernel)

theorem isStep_append_slash : isStep (directory ++ '/' :: base) = true := by
  refine decide_eq_true ⟨by simp, fun dot => ?_⟩
  have slash : '/' ∈ ['.'] := dot ▸ List.mem_append_right _ List.mem_cons_self
  exact absurd slash (by decide)

/-! ## Directories for members -/

theorem toList_joined (segments : List (List Char)) :
    (Text.joined "/" (segments.map String.ofList)).toList = ['/'].intercalate segments := by
  have texts : (segments.map String.ofList).map String.toList = segments := by simp
  rw [Text.joined, String.toList_intercalate, texts]
  rfl

/-- The directory in which the members of the document at a path are placed. -/
def home (path : String) : List Char :=
  Text.lowerChars
    (['/'].intercalate ([directoryOf path.toList, stemOf path.toList].filter isStep))

/-- The part of the name of a source file by which its entry document is placed. -/
def sourceStem (fileName : String) : List Char := stemOf (standardize fileName).toList

/-- The file name of a member in lower case. -/
def fileOf (name extension : String) : List Char :=
  Text.lowerChars (withExtension name extension).toList

/-- The part of the file name of a member for which the directory of its own members is
named. -/
def memberStem (name extension : String) : List Char := stemOf (fileOf name extension)

variable {name extension : String}

/-- The stem of a source file is one segment. -/
theorem lowerChars_sourceStem_ne {fileName : String} :
    Text.lowerChars (sourceStem fileName) ≠ directory ++ '/' :: base := by
  intro same
  have slash : '/' ∈ Text.lowerChars (sourceStem fileName) :=
    same ▸ List.mem_append_right _ List.mem_cons_self
  exact slash_not_mem_stemOf (Text.mem_of_mem_lowerChars slash (by decide))

theorem toList_entry {fileName location : String}
    (placed : entry? fileName extension = some location) :
    sourceStem fileName ≠ [] ∧
      location.toList = sourceStem fileName ++ '.' :: extension.toList := by
  unfold entry? at placed
  dsimp only at placed
  split at placed
  · cases placed
  · next nonempty =>
      refine ⟨nonempty, ?_⟩
      rw [← Option.some.inj placed, toList_withExtension, String.toList_ofList, sourceStem]

/-- Apart from slashes and small letters, a directory for members holds what the path holds. -/
theorem mem_of_mem_home {path : String} {char : Char} (held : char ∈ home path)
    (capital : char.toNat < 0x61) (noSlash : char ≠ '/') : char ∈ path.toList := by
  rcases Text.mem_of_mem_intercalate (Text.mem_of_mem_lowerChars held capital) with
    slash | ⟨part, kept, inside⟩
  · exact absurd (List.mem_singleton.mp slash) noSlash
  · have listed := (List.mem_filter.mp kept).1
    simp only [List.mem_cons, List.not_mem_nil, or_false] at listed
    rcases listed with rfl | rfl
    · exact directoryOf_subset inside
    · exact stemOf_subset inside

/-- The members of an entry point are placed in a directory with its stem. -/
theorem home_entry {fileName location : String}
    (placed : entry? fileName extension = some location)
    (noSlash : '/' ∉ extension.toList) (noDot : '.' ∉ extension.toList)
    (step : isStep (Text.lowerChars (sourceStem fileName)) = true) :
    home location = Text.lowerChars (sourceStem fileName) := by
  obtain ⟨nonempty, locationEq⟩ := toList_entry placed
  have stemClean : '/' ∉ sourceStem fileName := slash_not_mem_stemOf
  have clean : '/' ∉ location.toList := by simp [locationEq, stemClean, noSlash]
  have stem : stemOf location.toList = sourceStem fileName := by
    rw [locationEq, stemOf_withExtension nonempty stemClean noSlash noDot]
  have still : isStep [] = false := by decide
  rw [home, directoryOf_of_not_mem clean, stem, List.filter_cons, still,
    List.filter_cons_of_pos (isStep_of_isStep_lowerChars step)]
  simp

theorem intercalate_ne_nil {segments : List (List Char)} (some : segments ≠ [])
    (each : ∀ segment ∈ segments, isStep segment = true) : ['/'].intercalate segments ≠ [] := by
  cases segments with
  | nil => exact absurd rfl some
  | cons first rest =>
      have nonempty : first ≠ [] := (of_decide_eq_true (each first List.mem_cons_self)).1
      cases rest with
      | nil => simpa using nonempty
      | cons second later => simp [List.intercalate_cons_cons]

/-- The path of a member is its file name in the directory for the members of its container, if
there is one. -/
theorem toList_member_of_isStep {container : String}
    (fileStep : isStep (withExtension name extension).toList = true) :
    (member container name extension).toList =
      if home container = [] then fileOf name extension
      else home container ++ '/' :: fileOf name extension := by
  let owner := [directoryOf container.toList, stemOf container.toList].filter isStep
  have homeEq : home container = Text.lowerChars (['/'].intercalate owner) := rfl
  have parts : [directoryOf container.toList, stemOf container.toList,
      (withExtension name extension).toList].filter isStep =
        owner ++ [(withExtension name extension).toList] := by
    have last : [(withExtension name extension).toList].filter isStep =
        [(withExtension name extension).toList] := List.filter_cons_of_pos fileStep
    exact (List.filter_append [_, _] [_]).trans (congrArg (owner ++ ·) last)
  rw [member, Text.toLower, String.toList_ofList, toList_joined, parts]
  by_cases none : owner = []
  · have noHome : home container = [] := by
      rw [homeEq, none]
      rfl
    rw [if_pos noHome, none, List.nil_append, List.intercalate_singleton]
    rfl
  · have someHome : home container ≠ [] := by
      rw [homeEq, Ne, Text.lowerChars_eq_nil_iff]
      exact intercalate_ne_nil none fun segment inside => (List.mem_filter.mp inside).2
    rw [if_neg someHome, Text.intercalate_concat none, List.singleton_append,
      Text.lowerChars_append_slash, homeEq]
    rfl

/-- The path of a member has the directory for the members of its container. -/
theorem toList_member {container : String} (homeStep : isStep (home container) = true)
    (fileStep : isStep (fileOf name extension) = true) :
    (member container name extension).toList =
      home container ++ '/' :: fileOf name extension := by
  have someHome : home container ≠ [] := (of_decide_eq_true homeStep).1
  rw [toList_member_of_isStep (isStep_of_isStep_lowerChars fileStep), if_neg someHome]

theorem isStep_of_isStep_stemOf (step : isStep (stemOf base) = true) : isStep base = true := by
  refine decide_eq_true ⟨?_, ?_⟩
  · rintro rfl
    exact absurd step (by decide)
  · rintro rfl
    exact absurd step (by decide)

theorem slash_not_mem_fileOf (nameClean : '/' ∉ name.toList)
    (extensionClean : '/' ∉ extension.toList) : '/' ∉ fileOf name extension := by
  intro member
  have source := Text.mem_of_mem_lowerChars member (by decide)
  rw [toList_withExtension] at source
  simp [nameClean, extensionClean] at source

/-- The members of a member are placed below the members of its container. -/
theorem home_member {container : String} (homeStep : isStep (home container) = true)
    (nameClean : '/' ∉ name.toList) (extensionClean : '/' ∉ extension.toList)
    (step : isStep (memberStem name extension) = true) :
    home (member container name extension) =
      home container ++ '/' :: memberStem name extension := by
  have clean : '/' ∉ fileOf name extension := slash_not_mem_fileOf nameClean extensionClean
  -- Both parts come from a path in lower case, so lower-casing them again changes nothing.
  have lowerHome : Text.lowerChars (home container) = home container :=
    Text.lowerChars_lowerChars _
  have lowerStem : Text.lowerChars (memberStem name extension) = memberStem name extension :=
    Text.lowerChars_of_isLower fun char held =>
      Text.isLower_of_mem_lowerChars (stemOf_subset held)
  have both : [home container, memberStem name extension].filter isStep =
      [home container, memberStem name extension] := by
    rw [List.filter_cons_of_pos homeStep, List.filter_cons_of_pos step, List.filter_nil]
  rw [home, toList_member homeStep (isStep_of_isStep_stemOf step), directoryOf_append clean,
    stemOf_append clean, ← memberStem, both, List.intercalate_cons_cons,
    List.intercalate_singleton, List.append_assoc, List.singleton_append,
    Text.lowerChars_append_slash, lowerHome, lowerStem]

end DocumentPath

end ApiManual
