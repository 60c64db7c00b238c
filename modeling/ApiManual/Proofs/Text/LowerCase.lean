import ApiManual.Text.LowerCase

/-!
# Text in lower case

Lower-casing leaves its own output as it is.  What it makes of a letter is a small letter, from
those of ASCII on, and no letter that has a lower-case form in turn.  So a text in lower case
holds only characters that are their own lower-case forms.

Only a capital sigma looks at the characters around it, and no further than to the nearest one
that is not case-ignorable.  A slash is neither cased nor case-ignorable, so a path is
lower-cased part by part.
-/

namespace ApiManual.Text

/-! ## Forms of letters -/

namespace CaseRun

/-- The lower-case form of the last letter of the run. -/
def lastImage (run : CaseRun) : Nat := run.image + (run.last - run.first)

/-- Whether the lower-case forms of one run stand between the letters of another. -/
def interleaves (run other : CaseRun) : Bool :=
  (run.step == 2 || run.first == run.last) && other.step == 2 &&
    (run.image + other.first) % 2 == 1

/-- Whether no lower-case form of the run is a letter of ascending runs. -/
def avoids (run : CaseRun) : List CaseRun → Bool
  | [] => true
  | other :: rest =>
      run.lastImage < other.first ||
        (other.last < run.image || run.interleaves other) && run.avoids rest

variable {run other : CaseRun} {distance code : Nat}

theorem not_covers_of_interleaves (interleaves : run.interleaves other = true)
    (inside : distance ≤ run.last - run.first) (inStep : distance % run.step = 0) :
    other.covers (run.image + distance) = false := by
  simp only [CaseRun.interleaves, Bool.and_eq_true, Bool.or_eq_true, beq_iff_eq] at interleaves
  obtain ⟨⟨spread, otherStep⟩, odd⟩ := interleaves
  have even : distance % 2 = 0 := by
    rcases spread with two | single
    · rwa [two] at inStep
    · omega
  -- Letters of the other run lie at even distances from its first one, images of this at odd ones.
  refine Bool.eq_false_iff.mpr fun covered => ?_
  simp only [covers, otherStep, Bool.and_eq_true, decide_eq_true_eq, beq_iff_eq] at covered
  omega

/-- What a run makes of its letters has no lower-case form in runs that it avoids. -/
theorem lowerCodeIn_eq_none_of_avoids {runs : List CaseRun} (avoids : run.avoids runs = true)
    (inside : distance ≤ run.last - run.first) (inStep : distance % run.step = 0) :
    lowerCodeIn runs (run.image + distance) = none := by
  induction runs with
  | nil => rfl
  | cons other rest ih =>
      simp only [CaseRun.avoids, Bool.or_eq_true, Bool.and_eq_true, decide_eq_true_eq] at avoids
      rw [lowerCodeIn]
      rcases avoids with below | ⟨apart, later⟩
      · rw [lastImage] at below
        rw [if_pos (by omega)]
      · have uncovered : other.covers (run.image + distance) = false := by
          rcases apart with above | interleaves
          · simp only [covers, Bool.and_eq_false_iff, decide_eq_false_iff_not]
            exact .inl (.inr (by omega))
          · exact not_covers_of_interleaves interleaves inside inStep
        rw [uncovered, ih later]
        simp only [Bool.false_eq_true, if_false, ite_self]

end CaseRun

/-- The lower-case form of a letter comes from a run that covers the letter. -/
theorem exists_run_of_lowerCodeIn {runs : List CaseRun} {code image : Nat}
    (found : lowerCodeIn runs code = some image) :
    ∃ run ∈ runs, run.covers code = true ∧ image = run.image + (code - run.first) := by
  induction runs with
  | nil => cases found
  | cons run rest ih =>
      simp only [lowerCodeIn] at found
      split at found
      · cases found
      · split at found
        · next covered =>
            cases found
            exact ⟨run, List.mem_cons_self, covered, rfl⟩
        · obtain ⟨later, member, made⟩ := ih found
          exact ⟨later, List.mem_cons_of_mem _ member, made⟩

/-- A character is its own lower-case form in every context. -/
def IsLower (char : Char) : Prop := char ≠ capitalSigma ∧ lowerChar char = [char]

instance (char : Char) : Decidable (IsLower char) := inferInstanceAs (Decidable (_ ∧ _))

/-- What lower-casing makes of a letter is a small letter. -/
theorem isLower_of_lowerCodeIn {code image : Nat}
    (found : lowerCodeIn caseRuns code = some image) :
    IsLower (Char.ofNat image) ∧ 0x61 ≤ (Char.ofNat image).toNat := by
  -- Run by run: comparing the bounds of two runs is much less than looking up every letter.
  have avoiding : ∀ run ∈ caseRuns, run.avoids caseRuns = true := by decide +kernel
  have bounds : ∀ run ∈ caseRuns, 0x61 ≤ run.image ∧
      (run.lastImage < 0x130 ∨ 0x130 < run.image) ∧
      (run.lastImage < 0xD800 ∨ 0xDFFF < run.image ∧ run.lastImage < 0x110000) := by
    decide +kernel
  obtain ⟨run, member, covered, rfl⟩ := exists_run_of_lowerCodeIn found
  obtain ⟨small, noDot, valid⟩ := bounds run member
  simp only [CaseRun.covers, Bool.and_eq_true, decide_eq_true_eq, beq_iff_eq] at covered
  have inside : code - run.first ≤ run.last - run.first := by omega
  have settled := CaseRun.lowerCodeIn_eq_none_of_avoids (avoiding run member) inside covered.2
  rw [CaseRun.lastImage] at noDot valid
  generalize imageEq : run.image + (code - run.first) = image at settled ⊢
  have notDotted : image ≠ 0x130 := by omega
  have isValid : image.isValidChar := by
    rw [Nat.isValidChar]
    omega
  have codeEq : (Char.ofNat image).toNat = image := by
    rw [Char.ofNat, dif_pos isValid]
    rfl
  refine ⟨⟨?_, ?_⟩, by omega⟩
  · intro sigma
    rw [← codeEq, sigma] at settled
    exact absurd settled (by decide +kernel)
  · have noDot : Char.ofNat image ≠ 'İ' := by
      intro dotted
      rw [dotted] at codeEq
      exact notDotted codeEq.symm
    rw [lowerChar, if_neg noDot, codeEq, settled]

/-! ## Characters in lower case -/

theorem isLower_of_mem_lowerChar {char made : Char} (noSigma : char ≠ capitalSigma)
    (member : made ∈ lowerChar char) : IsLower made ∧ (made = char ∨ 0x61 ≤ made.toNat) := by
  by_cases dotted : char = 'İ'
  · rw [lowerChar, if_pos dotted] at member
    simp only [List.mem_cons, List.not_mem_nil, or_false] at member
    rcases member with rfl | rfl
    · exact ⟨by decide +kernel, .inr (by decide)⟩
    · exact ⟨by decide +kernel, .inr (by decide)⟩
  · cases found : lowerCodeIn caseRuns char.toNat with
    | some image =>
        simp only [lowerChar, dotted, if_false, found, List.mem_singleton] at member
        obtain ⟨lower, small⟩ := isLower_of_lowerCodeIn found
        exact member ▸ ⟨lower, .inr small⟩
    | none =>
        have itself : lowerChar char = [char] := by
          simp only [lowerChar, dotted, if_false, found]
        rw [itself, List.mem_singleton] at member
        rw [member]
        exact ⟨⟨noSigma, itself⟩, .inl rfl⟩

/-- What lower-casing makes are characters of the text and small letters, none of which changes
any more. -/
theorem isLower_of_mem_lowerAfter {before chars : List Char} {made : Char}
    (member : made ∈ lowerAfter before chars) :
    IsLower made ∧ (made ∈ chars ∨ 0x61 ≤ made.toNat) := by
  induction chars generalizing before with
  | nil => cases member
  | cons char rest ih =>
      rw [lowerAfter, List.mem_append] at member
      rcases member with image | later
      · split at image
        · split at image
          · rw [List.mem_singleton] at image
            exact image ▸ ⟨by decide +kernel, .inr (by decide)⟩
          · rw [List.mem_singleton] at image
            exact image ▸ ⟨by decide +kernel, .inr (by decide)⟩
        · next noSigma =>
            obtain ⟨lower, source⟩ := isLower_of_mem_lowerChar noSigma image
            exact ⟨lower, source.imp_left fun (same : made = char) => same ▸ List.mem_cons_self⟩
      · obtain ⟨lower, source⟩ := ih later
        exact ⟨lower, source.imp_left (List.mem_cons_of_mem char)⟩

/-- A character before the small letters is not made by lower-casing. -/
theorem mem_of_mem_lowerChars {chars : List Char} {made : Char}
    (member : made ∈ lowerChars chars) (before : made.toNat < 0x61) : made ∈ chars :=
  (isLower_of_mem_lowerAfter member).2.resolve_right (Nat.not_le_of_lt before)

theorem isLower_of_mem_lowerChars {chars : List Char} {made : Char}
    (member : made ∈ lowerChars chars) : IsLower made :=
  (isLower_of_mem_lowerAfter member).1

/-- Without a capital sigma, characters are lower-cased one by one. -/
theorem lowerAfter_of_not_mem {before chars : List Char} (clean : capitalSigma ∉ chars) :
    lowerAfter before chars = chars.flatMap lowerChar := by
  induction chars generalizing before with
  | nil => rfl
  | cons char rest ih =>
      rw [List.mem_cons, not_or] at clean
      rw [lowerAfter, if_neg (Ne.symm clean.1), ih clean.2, List.flatMap_cons]

theorem lowerAfter_of_isLower {before chars : List Char}
    (lower : ∀ char ∈ chars, IsLower char) : lowerAfter before chars = chars := by
  induction chars generalizing before with
  | nil => rfl
  | cons char rest ih =>
      obtain ⟨⟨noSigma, itself⟩, others⟩ := List.forall_mem_cons.mp lower
      rw [lowerAfter, if_neg noSigma, itself, ih others]
      rfl

/-- A text in lower case stays as it is. -/
theorem lowerChars_of_isLower {chars : List Char} (lower : ∀ char ∈ chars, IsLower char) :
    lowerChars chars = chars :=
  lowerAfter_of_isLower lower

/-- A text that lower-casing leaves as it is, wherever it stands, is in lower case. -/
theorem lowerAfter_eq_self_iff {before chars : List Char} :
    lowerAfter before chars = chars ↔ ∀ char ∈ chars, IsLower char := by
  constructor
  · intro same char inside
    rw [← same] at inside
    exact (isLower_of_mem_lowerAfter inside).1
  · exact lowerAfter_of_isLower

theorem toLower_eq_self_iff {text : String} :
    toLower text = text ↔ ∀ char ∈ text.toList, IsLower char := by
  rw [toLower, ← lowerAfter_eq_self_iff, ← String.toList_inj, String.toList_ofList]
  rfl

/-- Lower-casing again changes nothing. -/
theorem lowerChars_lowerChars (chars : List Char) :
    lowerChars (lowerChars chars) = lowerChars chars :=
  lowerChars_of_isLower fun _ => isLower_of_mem_lowerChars

/-! ## Parts of paths -/

/-- What comes after a slash does not matter to a capital sigma before it. -/
theorem startsCased_append_slash (chars rest : List Char) :
    startsCased (chars ++ '/' :: rest) = startsCased chars := by
  induction chars with
  | nil =>
      have stops : isCaseIgnorable '/' = false := by decide +kernel
      have uncased : isCased '/' = false := by decide +kernel
      simp [startsCased, stops, uncased]
  | cons char chars ih =>
      by_cases ignored : isCaseIgnorable char = true
      · simp only [startsCased, List.cons_append, List.dropWhile_cons, ignored, if_true] at ih ⊢
        exact ih
      · simp only [startsCased, List.cons_append, List.dropWhile_cons, ignored]
        rfl

/-- What comes before a slash does not matter after it. -/
theorem lowerAfter_slash (between before chars : List Char) :
    lowerAfter (between ++ '/' :: before) chars = lowerAfter between chars := by
  induction chars generalizing between with
  | nil => rfl
  | cons char rest ih =>
      rw [lowerAfter, lowerAfter, startsCased_append_slash, ← List.cons_append, ih]

theorem lowerAfter_append_slash (before chars rest : List Char) :
    lowerAfter before (chars ++ '/' :: rest) =
      lowerAfter before chars ++ '/' :: lowerChars rest := by
  induction chars generalizing before with
  | nil =>
      have slash : IsLower '/' := by decide +kernel
      rw [List.nil_append, lowerAfter, lowerAfter, if_neg slash.1, slash.2]
      exact congrArg _ (lowerAfter_slash [] before rest)
  | cons char chars ih =>
      rw [List.cons_append, lowerAfter, lowerAfter, startsCased_append_slash, ih,
        List.append_assoc]

/-- A path is lower-cased part by part. -/
theorem lowerChars_append_slash (chars rest : List Char) :
    lowerChars (chars ++ '/' :: rest) = lowerChars chars ++ '/' :: lowerChars rest :=
  lowerAfter_append_slash [] chars rest

/-! ## Lowering along a text -/

/-- One text is a lower-case form of another: character by character it holds the same or, for
characters that mean nothing in paths, small letters. -/
inductive Lowers : List Char → List Char → Prop where
  | nil : Lowers [] []
  | same (char : Char) {rest made : List Char} (later : Lowers rest made) :
      Lowers (char :: rest) (char :: made)
  | small {char : Char} {image rest made : List Char} (some : image ≠ [])
      (letters : ∀ letter ∈ image, 0x61 ≤ letter.toNat)
      (unmarked : char ∉ ['.', '/', '\\']) (later : Lowers rest made) :
      Lowers (char :: rest) (image ++ made)

theorem lowerChar_eq_or_small (char : Char) :
    lowerChar char = [char] ∨ lowerChar char ≠ [] ∧
      (∀ letter ∈ lowerChar char, 0x61 ≤ letter.toNat) ∧ char ∉ ['.', '/', '\\'] := by
  by_cases dotted : char = 'İ'
  · subst dotted
    exact .inr ⟨by decide, by simp [lowerChar], by decide⟩
  · cases found : lowerCodeIn caseRuns char.toNat with
    | none => exact .inl (by simp only [lowerChar, dotted, if_false, found])
    | some image =>
        have imageEq : lowerChar char = [Char.ofNat image] := by
          simp only [lowerChar, dotted, if_false, found]
        refine .inr ⟨imageEq ▸ List.cons_ne_nil _ _, ?_, fun marked => ?_⟩
        · rw [imageEq, List.forall_mem_singleton]
          exact (isLower_of_lowerCodeIn found).2
        · have unchanged : ['.', '/', '\\'].all
              (lowerCodeIn caseRuns ·.toNat = none) := by decide +kernel
          rw [decide_eq_true_eq.mp (List.all_eq_true.mp unchanged char marked)] at found
          cases found

/-- A text that is followed by another one is lowered on its own, apart from what comes after
its words. -/
theorem lowerAfter_append (before chars rest : List Char) :
    ∃ made, lowerAfter before (chars ++ rest) =
        made ++ lowerAfter (chars.reverse ++ before) rest ∧ Lowers chars made := by
  induction chars generalizing before with
  | nil => exact ⟨[], rfl, .nil⟩
  | cons char chars ih =>
      obtain ⟨made, madeEq, lowers⟩ := ih (char :: before)
      have context : (char :: chars).reverse ++ before = chars.reverse ++ char :: before := by simp
      rw [List.cons_append, lowerAfter, madeEq, context, ← List.append_assoc]
      refine ⟨_, rfl, ?_⟩
      split
      · next sigma =>
          subst sigma
          split
          · exact .small (List.cons_ne_nil _ _) (by simp) (by decide) lowers
          · exact .small (List.cons_ne_nil _ _) (by simp) (by decide) lowers
      · rcases lowerChar_eq_or_small char with itself | ⟨some, letters, unmarked⟩
        · rw [itself]
          exact .same char lowers
        · exact .small some letters unmarked lowers

theorem lowers_lowerAfter (before chars : List Char) : Lowers chars (lowerAfter before chars) := by
  obtain ⟨made, madeEq, lowers⟩ := lowerAfter_append before chars []
  rw [List.append_nil, lowerAfter, List.append_nil] at madeEq
  rw [madeEq]
  exact lowers

/-- Small letters do not make up texts that have none. -/
theorem Lowers.eq_of_forall_lt {chars made : List Char} (lowers : Lowers chars made)
    (capital : ∀ char ∈ made, char.toNat < 0x61) : chars = made := by
  induction lowers with
  | nil => rfl
  | same char _ ih => rw [ih fun other later => capital other (List.mem_cons_of_mem _ later)]
  | small some letters _ _ _ =>
      obtain ⟨letter, inside⟩ := List.exists_mem_of_ne_nil _ some
      have small := letters letter inside
      have large := capital letter (List.mem_append_left _ inside)
      omega

theorem Lowers.mem_of_lt {chars made : List Char} (lowers : Lowers chars made) {mark : Char}
    (inside : mark ∈ made) (capital : mark.toNat < 0x61) : mark ∈ chars := by
  induction lowers with
  | nil => cases inside
  | same char _ ih =>
      rcases List.mem_cons.mp inside with rfl | later
      · exact List.mem_cons_self
      · exact List.mem_cons_of_mem _ (ih later)
  | small _ letters _ _ ih =>
      rcases List.mem_append.mp inside with letter | later
      · exact absurd (letters mark letter) (Nat.not_le_of_lt capital)
      · exact List.mem_cons_of_mem _ (ih later)

theorem lowerChars_eq_nil_iff {chars : List Char} : lowerChars chars = [] ↔ chars = [] := by
  constructor
  · intro none
    have lowers := lowers_lowerAfter [] chars
    rw [← lowerChars, none] at lowers
    exact lowers.eq_of_forall_lt (List.forall_mem_nil _)
  · rintro rfl
    rfl

end ApiManual.Text
