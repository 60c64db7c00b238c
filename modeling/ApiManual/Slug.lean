import ApiManual.Text.Alphanumeric
import ApiManual.Text.Lines
import ApiManual.Text.LowerCase

/-!
# Slugs

The anchor of a heading, as hosts of Markdown derive it from the title.
-/

namespace ApiManual

def isSlugChar (char : Char) : Bool :=
  Text.isAlphanumeric char || char = '_' || char = '-'

/-- What is left of a character of a title: a dash for a blank one, the character
itself when it may stand in a slug, and otherwise nothing. -/
def slugChar? (char : Char) : Option Char :=
  if Text.isBlank char then some '-'
  else if isSlugChar char then some char
  else none

/-- The characters of the slug of a title. Space around the title and dashes at
the end of the slug are dropped. -/
def slugChars (title : List Char) : List Char :=
  let chars := (Text.lowerChars (Text.trimChars title)).filterMap slugChar?
  (chars.reverse.dropWhile (· = '-')).reverse

def slug (title : String) : String := String.ofList (slugChars title.toList)

end ApiManual
