import ApiManual.Text.CodeRanges

/-! # Blank characters -/

namespace ApiManual.Text

/-- The code points with the property `White_Space`. -/
def blankRanges : CodeRanges where
  ranges :=
    [(0x9, 0xD), (0x20, 0x20), (0x85, 0x85), (0xA0, 0xA0), (0x1680, 0x1680), (0x2000, 0x200A),
     (0x2028, 0x2029), (0x202F, 0x202F), (0x205F, 0x205F), (0x3000, 0x3000)]
  ascending := by decide +kernel

def isBlank (char : Char) : Bool := blankRanges.covers char.toNat

end ApiManual.Text
