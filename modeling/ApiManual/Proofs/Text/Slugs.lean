import ApiManual.Proofs.Text.Lines
import ApiManual.Proofs.Text.LowerCase
import ApiManual.Slug
import Mathlib.Data.List.Basic

/-!
# Texts that are slugs

A slug is made in four steps: space around the title is trimmed, the rest is lower-cased, every
character is replaced, kept or left out, and dashes at the end are dropped.  A text that none of
the steps changes is a slug, and each step leaves what the steps before it have settled.  So the
slug of a title is its own slug.

Blank characters are never alphanumeric, which tells that slugs have no space to trim.
-/

namespace ApiManual

namespace Text

/-- No blank character is a letter or a number. -/
theorem isAlphanumeric_of_isBlank {char : Char} (blank : isBlank char = true) :
    isAlphanumeric char = false := by
  have apart : ∀ range ∈ blankRanges.ranges, ∀ code ∈ List.range' range.1 (range.2 + 1 - range.1),
      alphanumericRanges.covers code = false := by decide +kernel
  obtain ⟨range, listed, first, last⟩ := CodeRanges.covers_iff.mp blank
  refine apart range listed char.toNat (List.mem_range'_1.mpr ?_)
  omega

end Text

theorem slugChars_eq (title : List Char) :
    slugChars title =
      ((Text.lowerChars (Text.trimChars title)).filterMap slugChar?).rdropWhile (· = '-') := rfl

theorem isBlank_of_isSlugChar {char : Char} (kept : isSlugChar char = true) :
    Text.isBlank char = false := by
  refine Bool.eq_false_iff.mpr fun blank => ?_
  simp only [isSlugChar, Text.isAlphanumeric_of_isBlank blank, Bool.false_or, Bool.or_eq_true,
    decide_eq_true_eq] at kept
  rcases kept with rfl | rfl
  · exact absurd blank (by decide)
  · exact absurd blank (by decide)

/-- What is left of a character is a dash or the character itself. -/
theorem slugChar?_eq_some {char made : Char} (found : slugChar? char = some made) :
    isSlugChar made = true ∧ (made = '-' ∨ made = char) := by
  rw [slugChar?] at found
  split at found
  · cases found
    exact ⟨by decide, .inl rfl⟩
  · split at found
    · next kept =>
        cases found
        exact ⟨kept, .inr rfl⟩
    · cases found

theorem slugChar?_of_isSlugChar {char : Char} (kept : isSlugChar char = true) :
    slugChar? char = some char := by
  rw [slugChar?, isBlank_of_isSlugChar kept, kept]
  rfl

/-- Text that can be a slug: all of its characters may stand in one and are in lower case, and no
dash ends it. -/
structure IsSlug (text : String) : Prop where
  chars : ∀ char ∈ text.toList, isSlugChar char = true
  lower : ∀ char ∈ text.toList, Text.IsLower char
  noDash : text.toList.getLast? ≠ some '-'

/-- No step changes a text that can be a slug. -/
theorem IsSlug.slug_eq {text : String} (isSlug : IsSlug text) : slug text = text := by
  have trimmed : Text.trimChars text.toList = text.toList :=
    Text.dropBoth_eq_self_iff.mpr
      ⟨fun first isFirst => isBlank_of_isSlugChar (isSlug.chars _ (List.mem_of_mem_head? isFirst)),
        fun last isLast => isBlank_of_isSlugChar (isSlug.chars _ (List.mem_of_mem_getLast? isLast))⟩
  have kept : text.toList.filterMap slugChar? = text.toList := by
    rw [List.filterMap_congr fun char inside => slugChar?_of_isSlugChar (isSlug.chars char inside)]
    exact List.filterMap_some
  have ends : text.toList.rdropWhile (· = '-') = text.toList :=
    List.rdropWhile_eq_self_iff.mpr fun some dash => isSlug.noDash (by
      rw [List.getLast?_eq_some_getLast some, of_decide_eq_true dash])
  rw [slug, slugChars_eq, trimmed, Text.lowerChars_of_isLower isSlug.lower, kept, ends,
    String.ofList_toList]

/-- A slug is made of characters in lower case that may stand in slugs. -/
theorem of_mem_slug {title : String} {char : Char} (inside : char ∈ (slug title).toList) :
    isSlugChar char = true ∧ Text.IsLower char := by
  rw [slug, String.toList_ofList, slugChars_eq] at inside
  have made := (List.rdropWhile_prefix _ _).subset inside
  obtain ⟨source, lowered, found⟩ := List.mem_filterMap.mp made
  obtain ⟨kept, same⟩ := slugChar?_eq_some found
  refine ⟨kept, ?_⟩
  rcases same with rfl | rfl
  · decide +kernel
  · exact Text.isLower_of_mem_lowerChars lowered

theorem isSlug_slug (title : String) : IsSlug (slug title) where
  chars := fun _ inside => (of_mem_slug inside).1
  lower := fun _ inside => (of_mem_slug inside).2
  noDash := fun isLast => by
    rw [slug, String.toList_ofList, slugChars_eq] at isLast
    obtain ⟨some, last⟩ := List.mem_getLast?_eq_getLast isLast
    exact List.rdropWhile_last_not _ _ some (decide_eq_true last.symm)

/-- The texts that are their own slugs are those that can be slugs. -/
theorem slug_eq_self_iff {text : String} : slug text = text ↔ IsSlug text :=
  ⟨fun same => same ▸ isSlug_slug text, IsSlug.slug_eq⟩

/-- A slug is made of letters and numbers, underscores and dashes only. So it holds nothing that
would end it in a link or in a path, and no space. It does not end with a dash, and it is its own
slug. -/
theorem slug_is_clean_and_stable (title : String) :
    (∀ char ∈ (slug title).toList,
      (Text.isAlphanumeric char = true ∨ char = '_' ∨ char = '-') ∧
        Text.isBlank char = false ∧ char ∉ "#/[]()<>\x7b\x7d".toList) ∧
    (slug title).toList.getLast? ≠ some '-' ∧
    slug (slug title) = slug title ∧
    ∀ text, slug text = text ↔ IsSlug text := by
  refine ⟨fun char inside => ?_, (isSlug_slug title).noDash, (isSlug_slug title).slug_eq,
    fun text => slug_eq_self_iff⟩
  have kept : isSlugChar char = true := (isSlug_slug title).chars char inside
  refine ⟨?_, isBlank_of_isSlugChar kept, fun marked => ?_⟩
  · simpa [isSlugChar, or_assoc] using kept
  · have apart : "#/[]()<>\x7b\x7d".toList.all (!isSlugChar ·) = true := by decide +kernel
    have never := List.all_eq_true.mp apart char marked
    rw [kept] at never
    cases never

/-- A sigma that ends a word in the title keeps its final form where the slug joins the word to
what follows. -/
example : slug "  ΟΔΟΣ(x) — İ -" = "οδοςx--i" ∧ slug "οδοςx--i" = "οδοςx--i" := by decide +kernel

end ApiManual
