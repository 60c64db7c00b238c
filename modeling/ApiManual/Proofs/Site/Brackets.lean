import ApiManual.Proofs.DocComment.Characters
import ApiManual.Proofs.Markdown.Blocks
import ApiManual.Proofs.Site.PathParts
import ApiManual.Proofs.Site.Walking
import ApiManual.Site

/-!
# Brackets in paths

The target of a link is made of names of entities and source files, lower-cased and
slugged on the way.  None of these steps makes a bracket, so a definition holds no
link when the names hold no bracket.
-/

namespace ApiManual

open Stripping (BracketFree isLinkText)

namespace Text

/-- Lower-casing makes no bracket. -/
theorem bracketFree_toLower {text : String} (free : BracketFree text.toList) :
    BracketFree (toLower text).toList := by
  intro char member
  rw [toLower, String.toList_ofList] at member
  refine decide_eq_true ⟨?_, ?_⟩
  · rintro rfl
    exact absurd (free _ (mem_of_mem_lowerChars member (by decide))) (by decide)
  · rintro rfl
    exact absurd (free _ (mem_of_mem_lowerChars member (by decide))) (by decide)

end Text

theorem isLinkText_of_isSlugChar {char : Char} (kept : isSlugChar char = true) :
    isLinkText char = true := by
  refine decide_eq_true ⟨?_, ?_⟩
  · rintro rfl
    exact absurd kept (by decide)
  · rintro rfl
    exact absurd kept (by decide)

/-- A slug holds no brackets, whatever the title. -/
theorem bracketFree_slug (title : String) : BracketFree (slug title).toList := by
  intro char member
  rw [slug, String.toList_ofList] at member
  obtain ⟨source, _, made⟩ := List.mem_filterMap.mp ((List.rdropWhile_prefix _ _).subset member)
  simp only [slugChar?] at made
  split at made
  · cases made
    decide
  · split at made
    · next kept =>
        cases made
        exact isLinkText_of_isSlugChar kept
    · cases made

namespace DocumentPath

theorem bracketFree_withExtension {name extension : String} (nameFree : BracketFree name.toList)
    (extensionFree : BracketFree extension.toList) :
    BracketFree (withExtension name extension).toList :=
  (nameFree.concat (by decide)).concat extensionFree

theorem bracketFree_standardize {text : String} (free : BracketFree text.toList) :
    BracketFree (standardize text).toList := by
  intro char member
  rw [standardize, String.toList_ofList, List.mem_map] at member
  obtain ⟨source, held, rfl⟩ := member
  split
  · decide
  · exact free source held

theorem bracketFree_entry {fileName extension location : String}
    (fileFree : BracketFree fileName.toList) (extensionFree : BracketFree extension.toList)
    (placed : entry? fileName extension = some location) : BracketFree location.toList := by
  unfold entry? at placed
  dsimp only at placed
  split at placed
  · cases placed
  · rw [Option.some.injEq] at placed
    rw [← placed]
    refine bracketFree_withExtension ?_ extensionFree
    rw [String.toList_ofList]
    exact fun char member => bracketFree_standardize fileFree char (stemOf_subset member)

theorem bracketFree_member {container name extension : String}
    (containerFree : BracketFree container.toList) (nameFree : BracketFree name.toList)
    (extensionFree : BracketFree extension.toList) :
    BracketFree (member container name extension).toList := by
  apply Text.bracketFree_toLower
  refine Text.holds_joined (by decide : BracketFree "/".toList) ?_
  intro text inside
  obtain ⟨part, kept, rfl⟩ := List.mem_map.mp inside
  have listed := (List.mem_filter.mp kept).1
  simp only [List.mem_cons, List.not_mem_nil, or_false] at listed
  rw [String.toList_ofList]
  rcases listed with rfl | rfl | rfl
  · exact fun char held => containerFree char (directoryOf_subset held)
  · exact fun char held => containerFree char (stemOf_subset held)
  · exact bracketFree_withExtension nameFree extensionFree

/-- A link is made of what its target is made of. -/
theorem bracketFree_relative {start target : String} (free : BracketFree target.toList) :
    BracketFree (relative start target).toList := by
  have way : ∀ goal : List Char, BracketFree goal →
      BracketFree (Text.joined "/"
        ((stepsBetween (steps start.toList) (steps goal)).map String.ofList)).toList := by
    intro goal goalFree
    refine Text.holds_joined (by decide : BracketFree "/".toList) ?_
    intro text inside
    obtain ⟨segment, held, rfl⟩ := List.mem_map.mp inside
    rw [String.toList_ofList]
    rcases List.mem_append.mp held with up | down
    · rw [List.eq_of_mem_replicate up]
      exact (by decide : BracketFree ['.', '.'])
    · exact fun char member =>
        goalFree char (mem_of_mem_steps (List.mem_of_mem_drop down) member)
  cases cut : Text.splitFirst? '#' target.toList with
  | none =>
      simp only [relative, cut, String.append_empty]
      exact way _ free
  | some parts =>
      obtain ⟨before, after⟩ := parts
      rw [(Text.splitFirst?_eq_some_iff.mp cut).1, Stripping.bracketFree_append,
        Stripping.bracketFree_cons] at free
      simp only [relative, cut, String.toList_append, Stripping.bracketFree_append,
        String.toList_ofList]
      exact ⟨way _ free.1, by decide, free.2.2⟩

end DocumentPath

theorem Site.bracketFree_target {path title : String} (free : BracketFree path.toList) :
    BracketFree (target path title).toList :=
  (free.concat (by decide)).concat (bracketFree_slug title)

end ApiManual
