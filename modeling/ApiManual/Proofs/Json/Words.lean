import ApiManual.Json.Reader
import ApiManual.Json.Writer
import Mathlib.Data.List.TakeWhile

/-!
# Words and quoted texts

What a writer puts down for a text or a number is one token, and that token denotes the text or the
number again.  Quoted texts are read escape by escape.  Numbers are made of characters none of
which ends a word, and the digits of a number below `2 ^ 64` are all taken into its significand.
-/

namespace ApiManual.Json

/-! ## Quoted texts -/

theorem hexDigit_ne : ∀ value < 16, hexDigit value ≠ '"' ∧ hexDigit value ≠ '\\' := by decide

theorem codeUnit?_hexDigit :
    ∀ code < 32, codeUnit? '0' '0' (hexDigit (code / 16)) (hexDigit (code % 16)) = some code := by
  decide

theorem codePoints?_cons {char : Char} (unescaped : char ≠ '\\') (printed : ¬ char.toNat < 0x20)
    (done : List Nat) (rest : List Char) :
    codePoints? done (char :: rest) = codePoints? (char.toNat :: done) rest := by
  rw [codePoints?.eq_4]
  · rw [if_neg (not_or.mpr ⟨unescaped, printed⟩)]
  · intro _ _ _ _ _ isBackslash
    exact absurd isBackslash unescaped
  · intro _ _ isBackslash
    exact absurd isBackslash unescaped

/-- A character is read from its escape. -/
theorem codePoints?_escape (done : List Nat) (char : Char) (rest : List Char) :
    codePoints? done (escape char ++ rest) = codePoints? (char.toNat :: done) rest := by
  unfold escape
  split
  case h_8 quoted backslash _ _ _ _ _ =>
    split
    · next control =>
        have unit := codeUnit?_hexDigit char.toNat control
        simp [codePoints?, unit]
    · next printed => exact codePoints?_cons backslash printed done rest
  all_goals rfl

theorem codePoints?_flatMap_escape (done : List Nat) (chars : List Char) :
    codePoints? done (chars.flatMap escape) = some (done.reverse ++ chars.map Char.toNat) := by
  induction chars generalizing done with
  | nil => simp [codePoints?]
  | cons char rest ih =>
      rw [List.flatMap_cons, codePoints?_escape, ih]
      simp

theorem not_surrogate (char : Char) : ¬ (0xD800 ≤ char.toNat ∧ char.toNat ≤ 0xDFFF) := by
  have valid := char.valid
  simp only [UInt32.isValidChar, Nat.isValidChar] at valid
  simp only [Char.toNat]
  omega

theorem characters?_map_toNat (done chars : List Char) :
    characters? done (chars.map Char.toNat) = some (done.reverse ++ chars) := by
  induction chars generalizing done with
  | nil => simp [characters?]
  | cons char rest ih =>
      have whole := not_surrogate char
      cases rest with
      | nil => simp [characters?, whole, Char.ofNat_toNat]
      | cons next later =>
          have high : ¬ (0xD800 ≤ char.toNat ∧ char.toNat ≤ 0xDBFF) := by omega
          have low : ¬ (0xDC00 ≤ char.toNat ∧ char.toNat ≤ 0xDFFF) := by omega
          rw [List.map_cons, List.map_cons, characters?, if_neg high, if_neg low, ← List.map_cons,
            ih, Char.ofNat_toNat]
          simp

/-- A text is read from its escapes. -/
theorem quotedText?_flatMap_escape (text : String) :
    quotedText? (text.toList.flatMap escape) = some (some text) := by
  rw [quotedText?, codePoints?_flatMap_escape, List.reverse_nil, List.nil_append, Option.map_some,
    characters?_map_toNat]
  simp

/-! ## Numbers -/

/-- The characters that end a word. -/
def marks : List Char :=
  [' ', '\t', '\n', '\r', '"', '[', ']', '\x7b', '\x7d', ':', ',']

theorem mem_marks_of_endsWord {char : Char} (ends : Reader.endsWord char = true) :
    char ∈ marks := by
  simp only [Reader.endsWord, isSpace, Bool.or_eq_true, decide_eq_true_eq] at ends
  rcases ends with ((((rfl | rfl) | rfl) | rfl) | rfl) | punctuation
  · decide
  · decide
  · decide
  · decide
  · decide
  · unfold Token.punctuation? at punctuation
    split at punctuation
    case h_7 => cases punctuation
    all_goals decide

/-- The characters of numbers. -/
def isNumeral (char : Char) : Bool :=
  char.isDigit || ['-', '+', '.', 'e', 'E'].contains char

theorem endsWord_of_isNumeral {char : Char} (numeral : isNumeral char = true) :
    Reader.endsWord char = false := by
  refine Bool.eq_false_iff.mpr fun ends => ?_
  have none : marks.any isNumeral = false := by decide
  exact List.any_eq_false.mp none char (mem_marks_of_endsWord ends) numeral

theorem isNumeral_of_isDigit {char : Char} (digit : char.isDigit = true) :
    isNumeral char = true := by
  rw [isNumeral, digit, Bool.true_or]

namespace Decimal

theorem isNumeral_of_value? {digits : List Char} {value : Nat}
    (read : exponentOf?.value? digits = some value) : ∀ char ∈ digits, isNumeral char = true := by
  unfold exponentOf?.value? at read
  split at read
  · next both =>
      intro char member
      exact isNumeral_of_isDigit (List.all_eq_true.mp both.2 char member)
  · cases read

theorem isNumeral_of_exponentOf? {chars : List Char} {exponent : Int}
    (read : exponentOf? chars = some exponent) : ∀ char ∈ chars, isNumeral char = true := by
  unfold exponentOf? at read
  split at read
  · exact List.forall_mem_nil _
  · next mark rest =>
      split at read
      · next isMark =>
          have numeral : isNumeral mark = true := by
            rcases isMark with rfl | rfl <;> decide
          refine List.forall_mem_cons.mpr ⟨numeral, ?_⟩
          split at read
          all_goals
            obtain ⟨_, written, _⟩ := Option.map_eq_some_iff.mp read
            obtain ⟨value, digits, _⟩ := Option.bind_eq_some_iff.mp written
          · exact List.forall_mem_cons.mpr ⟨by decide, isNumeral_of_value? digits⟩
          · exact List.forall_mem_cons.mpr ⟨by decide, isNumeral_of_value? digits⟩
          · exact isNumeral_of_value? digits
      · cases read

theorem isNumeral_of_mem_takeWhile {chars : List Char} {char : Char}
    (member : char ∈ chars.takeWhile Char.isDigit) : isNumeral char = true :=
  isNumeral_of_isDigit (List.all_eq_true.mp List.all_takeWhile char member)

theorem isNumeral_of_ofUnsigned? {chars : List Char} {decimal : Decimal}
    (read : ofUnsigned? chars = some decimal) : ∀ char ∈ chars, isNumeral char = true := by
  rw [← List.takeWhile_append_dropWhile (p := Char.isDigit) (l := chars), List.forall_mem_append]
  refine ⟨fun char => isNumeral_of_mem_takeWhile, ?_⟩
  simp only [ofUnsigned?] at read
  split at read
  · cases read
  · split at read
    · next rest behind =>
        rw [behind]
        refine List.forall_mem_cons.mpr ⟨by decide, ?_⟩
        split at read
        · cases read
        · obtain ⟨exponent, found, _⟩ := Option.map_eq_some_iff.mp read
          rw [← List.takeWhile_append_dropWhile (p := Char.isDigit) (l := rest),
            List.forall_mem_append]
          exact ⟨fun char => isNumeral_of_mem_takeWhile, isNumeral_of_exponentOf? found⟩
    · obtain ⟨exponent, found, _⟩ := Option.map_eq_some_iff.mp read
      exact isNumeral_of_exponentOf? found

/-- A number is made of digits, signs, a point and marks of an exponent. -/
theorem isNumeral_of_ofChars? {chars : List Char} {decimal : Decimal}
    (read : ofChars? chars = some decimal) : ∀ char ∈ chars, isNumeral char = true := by
  unfold ofChars? at read
  split at read
  · exact List.forall_mem_cons.mpr ⟨by decide, isNumeral_of_ofUnsigned? read⟩
  · exact isNumeral_of_ofUnsigned? read

end Decimal

/-- Whether a text is that of a number that does not lead beyond the greatest double. -/
def isNumber (text : String) : Bool :=
  (Decimal.ofChars? text.toList).any fun decimal => !decimal.isBeyondDouble

theorem ofChars?_of_isNumber {text : String} (number : isNumber text = true) :
    ∃ decimal, Decimal.ofChars? text.toList = some decimal ∧ decimal.isBeyondDouble = false := by
  rw [isNumber] at number
  cases read : Decimal.ofChars? text.toList with
  | none =>
      rw [read] at number
      cases number
  | some decimal => exact ⟨decimal, rfl, by simpa [read] using number⟩

/-- A number is read from its text. -/
theorem wordValue?_of_isNumber {text : String} (number : isNumber text = true) :
    wordValue? text.toList = some (.number text) := by
  obtain ⟨decimal, read, finite⟩ := ofChars?_of_isNumber number
  have apart {letters : List Char} (word : Decimal.ofChars? letters = none) :
      text.toList ≠ letters := by
    rintro rfl
    rw [word] at read
    cases read
  rw [wordValue?, if_neg (apart (by decide)), if_neg (apart (by decide)),
    if_neg (apart (by decide)), read, Option.map_some, finite, String.ofList_toList]
  rfl

/-! ## Natural numbers -/

/-- The digits of a positive number do not begin with a zero. -/
theorem head?_toDigits_ne {value : Nat} (positive : 0 < value) :
    (Nat.toDigits 10 value).head? ≠ some '0' := by
  induction value using Nat.strongRecOn with
  | ind value ih =>
      by_cases single : value < 10
      · have nonzero : ∀ digit < 10, 0 < digit → digit.digitChar ≠ '0' := by decide
        rw [Nat.toDigits_of_lt_base single, List.head?_cons]
        exact fun same => nonzero value single positive (Option.some.inj same)
      · have front : 0 < value / 10 := Nat.div_pos (Nat.le_of_not_lt single) (by decide)
        have parts := Nat.toDigits_append_toDigits (d := value % 10) (by decide) front
          (Nat.mod_lt value (by decide))
        rw [Nat.div_add_mod] at parts
        rw [← parts, List.head?_append, Option.or_of_isSome
          (by simp)]
        exact ih (value / 10) (Nat.div_lt_self positive (by decide)) front

namespace Decimal

theorem le_ofDigitChars (significand : Nat) (digits : List Char) :
    significand ≤ Nat.ofDigitChars 10 digits significand := by
  induction digits generalizing significand with
  | nil => exact Nat.le_refl significand
  | cons digit rest ih =>
      rw [Nat.ofDigitChars_cons]
      exact Nat.le_trans (by omega) (ih _)

/-- All digits are appended to a significand that stays below `2 ^ 64`. -/
theorem appendDigits_eq {significand : Nat} {digits : List Char}
    (fits : Nat.ofDigitChars 10 digits significand < Nat.pow 2 64) :
    appendDigits significand digits = (Nat.ofDigitChars 10 digits significand, []) := by
  induction digits generalizing significand with
  | nil => rfl
  | cons digit rest ih =>
      rw [Nat.ofDigitChars_cons, Nat.mul_comm] at fits ⊢
      have longer := Nat.lt_of_le_of_lt (le_ofDigitChars _ rest) fits
      rw [appendDigits, if_pos longer, ih fits]

/-- A number of at most 53 bits is a double. -/
theorem roundToDouble_of_lt {value : Nat} (small : value < Nat.pow 2 53) :
    roundToDouble value = value := by
  have bits : value.log2 ≤ 52 := by
    by_cases zero : value = 0
    · rw [zero]
      decide
    · exact Nat.le_of_lt_succ ((Nat.log2_lt zero).mpr small)
  have unit : Nat.pow 2 (value.log2 - 52) = 1 := by
    rw [Nat.sub_eq_zero_of_le bits]
  simp only [roundToDouble, unit, Nat.mod_one, Nat.div_one]
  simp

/-- The digits of a natural number are an integer without fraction or exponent. -/
theorem ofChars?_toDigits (value : Nat) :
    ofChars? (Nat.toDigits 10 value) = some ⟨Nat.toDigits 10 value, [], 0⟩ := by
  have digits : ∀ char ∈ Nat.toDigits 10 value, char.isDigit = true := fun char =>
    Nat.isDigit_of_mem_toDigits (by decide) (by decide)
  have unsigned : ofUnsigned? (Nat.toDigits 10 value) = some ⟨Nat.toDigits 10 value, [], 0⟩ := by
    have whole : ¬ (Nat.toDigits 10 value = [] ∨
        (Nat.toDigits 10 value).head? = some '0' ∧ Nat.toDigits 10 value ≠ ['0']) := by
      rintro (none | ⟨zero, longer⟩)
      · exact Nat.toDigits_ne_nil none
      · by_cases positive : 0 < value
        · exact head?_toDigits_ne positive zero
        · obtain rfl : value = 0 := by omega
          exact longer (by decide)
    simp only [ofUnsigned?, List.takeWhile_eq_self_iff.mpr digits,
      List.dropWhile_eq_nil_iff.mpr digits]
    rw [if_neg whole]
    rfl
  unfold ofChars?
  split
  · next rest signed =>
      have sign := digits '-' (signed ▸ List.mem_cons_self)
      exact absurd sign (by decide)
  · exact unsigned

/-- A natural number of at most 53 bits is far below the greatest double. -/
theorem not_isBeyondDouble_toDigits {value : Nat} (small : value < Nat.pow 2 53) :
    isBeyondDouble ⟨Nat.toDigits 10 value, [], 0⟩ = false := by
  have read : Nat.ofDigitChars 10 (Nat.toDigits 10 value) 0 = value :=
    Nat.ofDigitChars_toDigits (by decide) (by decide)
  have whole : appendDigits 0 (Nat.toDigits 10 value) = (value, []) := by
    rw [appendDigits_eq (by rw [read]; exact Nat.lt_trans small (by decide)), read]
  have parts : scaled ⟨Nat.toDigits 10 value, [], 0⟩ = ⟨value, 0⟩ := by
    simp [scaled, whole, appendDigits]
  have finite : ¬ doubleLimit ≤ roundToDouble value * roundToDouble 1 := by
    have limit : Nat.pow 2 53 ≤ doubleLimit := by decide +kernel
    rw [roundToDouble_of_lt small, roundToDouble_of_lt (by decide)]
    omega
  simp only [isBeyondDouble, parts]
  split
  · rfl
  · simpa using finite

end Decimal

/-- A natural number of at most 53 bits is written as a number. -/
theorem isNumber_repr {value : Nat} (small : value < Nat.pow 2 53) :
    isNumber value.repr = true := by
  rw [isNumber, Nat.toList_repr, Decimal.ofChars?_toDigits, Option.any_some,
    Decimal.not_isBeyondDouble_toDigits small]
  rfl

end ApiManual.Json
