/-!
# The text of JSON numbers

A number is taken apart far enough to tell whether computing it as a double
leads to infinity.
-/

namespace ApiManual.Json

/-- The parts of a number: the digits of its integer, those of its fraction, and
its power of ten. The sign is left out. -/
structure Decimal where
  whole : List Char
  fraction : List Char
  exponent : Int

namespace Decimal

/-- The power of ten at the end of a number: nothing, or a mark, an optional
sign and at least one digit. -/
def exponentOf? : List Char → Option Int
  | [] => some 0
  | mark :: rest =>
      if mark = 'e' ∨ mark = 'E' then
        match rest with
        | '-' :: digits => (value? digits).map fun value => -(value : Int)
        | '+' :: digits => (value? digits).map fun value => (value : Int)
        | digits => (value? digits).map fun value => (value : Int)
      else none
where
  /-- The value of a nonempty run of digits. -/
  value? (digits : List Char) : Option Nat :=
    if digits ≠ [] ∧ digits.all Char.isDigit then
      some (Nat.ofDigitChars 10 digits 0)
    else none

/-- The parts of a number without its sign. -/
def ofUnsigned? (chars : List Char) : Option Decimal :=
  let whole := chars.takeWhile Char.isDigit
  if whole = [] ∨ (whole.head? = some '0' ∧ whole ≠ ['0']) then none
  else match chars.dropWhile Char.isDigit with
    | '.' :: rest =>
        let fraction := rest.takeWhile Char.isDigit
        if fraction = [] then none
        else (exponentOf? (rest.dropWhile Char.isDigit)).map
          fun exponent => { whole, fraction, exponent }
    | rest => (exponentOf? rest).map
        fun exponent => { whole, fraction := [], exponent }

def ofChars? : List Char → Option Decimal
  | '-' :: rest => ofUnsigned? rest
  | chars => ofUnsigned? chars

/-! ## The range of doubles

A number is computed as a double from the digits that fit into a word of 64 bits
and a power of ten.  The significand, the power and their product are rounded
one after the other, so near the greatest double the outcome is not always that
of rounding the number once.
-/

/-- A significand and the power of ten by which it is multiplied. -/
structure Scaled where
  significand : Nat
  exponent : Int

/-- Appends digits to a significand for as long as it stays below `2 ^ 64`: the
significand reached, and the digits from the first that does not fit. -/
def appendDigits (significand : Nat) : List Char → Nat × List Char
  | [] => (significand, [])
  | digit :: rest =>
      let longer := significand * 10 + (digit.toNat - '0'.toNat)
      if longer < Nat.pow 2 64 then appendDigits longer rest
      else (significand, digit :: rest)

/-- A number by the digits that fit into its significand. A digit left out of
the integer is a factor of ten; one left out of the fraction is lost. -/
def scaled (decimal : Decimal) : Scaled :=
  let (whole, beyond) := appendDigits 0 decimal.whole
  let (significand, lost) := appendDigits whole decimal.fraction
  let places := decimal.fraction.length - lost.length
  { significand, exponent := decimal.exponent + beyond.length - places }

/-- The nearest natural number with at most 53 significant bits: a double, when
it is not too large for one. Of two that are equally near, it is the one whose
last bit is zero. -/
def roundToDouble (value : Nat) : Nat :=
  let unit := Nat.pow 2 (value.log2 - 52)
  let units := value / unit
  let rest := value % unit
  if unit < 2 * rest ∨ (unit = 2 * rest ∧ units % 2 = 1) then (units + 1) * unit
  else units * unit

/-- The least magnitude that rounds to infinity as a double: halfway between the
greatest finite one and the next power of two. -/
def doubleLimit : Nat := Nat.pow 2 1024 - Nat.pow 2 970

/-- Whether computing a number as a double leads to infinity. The power of ten
is compared first: it is divided by when it is negative, and beyond `10 ^ 308`
it is itself no double. -/
def isBeyondDouble (decimal : Decimal) : Bool :=
  let ⟨significand, exponent⟩ := decimal.scaled
  if significand = 0 ∨ exponent < 0 then false
  else if 308 < exponent then true
  else
    doubleLimit ≤
      roundToDouble significand * roundToDouble (Nat.pow 10 exponent.toNat)

example : (ofChars? "1.7976931348623157e308".toList).map isBeyondDouble = some false := by
  decide +kernel

example : (ofChars? "-1.7976931348623158e308".toList).map isBeyondDouble = some true := by
  decide +kernel

example : (ofChars? "17976.9313486231570e304".toList).map isBeyondDouble = some false := by
  decide +kernel

example : (ofChars? "17976931348623157473E+289".toList).map isBeyondDouble = some true := by
  decide +kernel

example : (ofChars? "0e999".toList).map isBeyondDouble = some false := by decide +kernel

end Decimal

end ApiManual.Json
