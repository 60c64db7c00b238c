import ApiManual.Markdown
import ApiManual.References
import ApiManual.TypeExpr

/-!
# The text of type expressions

Plain text goes into signatures.  Linked text goes into prose, where angle
brackets are escaped.
-/

namespace ApiManual

namespace TypeExpr

/-- Whether an array of this type needs parentheses around its element. -/
def isJoined : TypeExpr → Bool
  | .union _ | .intersection _ => true
  | _ => false

def arrayText (element : TypeExpr) (text : String) : String :=
  if element.isJoined then "(" ++ text ++ ")[]" else text ++ "[]"

/-- The text of type arguments between angle brackets; nothing when there are
none. -/
def argumentsText (opening closing : String) (texts : List String) : String :=
  if texts.isEmpty then "" else opening ++ Text.joined ", " texts ++ closing

mutual

/-- A type expression as it stands in code. -/
def plain : TypeExpr → String
  | .keyword name => name
  | .reference name _ arguments =>
      name ++ argumentsText "<" ">" (plainAll arguments)
  | .array element => arrayText element element.plain
  | .union types => Text.joined " | " (plainAll types)
  | .intersection types => Text.joined " & " (plainAll types)
  | .tuple types => "[" ++ Text.joined ", " (plainAll types) ++ "]"
  | .literal text => text

def plainAll : List TypeExpr → List String
  | [] => []
  | type :: rest => type.plain :: plainAll rest

end

mutual

/-- A type expression as it stands in prose, and the references used so far with
the targets of its links added. -/
def linked : TypeExpr → References → String × References
  | .keyword name, used => (name, used)
  | .reference name target arguments, used =>
      let (head, used) := match target with
        | some id => (Markdown.link name id, used.insert id)
        | none => (name, used)
      let (texts, used) := linkedAll arguments used
      (head ++ argumentsText "&lt;" "&gt;" texts, used)
  | .array element, used =>
      let (text, used) := element.linked used
      (arrayText element text, used)
  | .union types, used =>
      let (texts, used) := linkedAll types used
      (Text.joined " | " texts, used)
  | .intersection types, used =>
      let (texts, used) := linkedAll types used
      (Text.joined " & " texts, used)
  | .tuple types, used =>
      let (texts, used) := linkedAll types used
      ("[" ++ Text.joined ", " texts ++ "]", used)
  | .literal text, used => (text, used)

def linkedAll : List TypeExpr → References → List String × References
  | [], used => ([], used)
  | type :: rest, used =>
      let (text, used) := type.linked used
      let (texts, used) := linkedAll rest used
      (text :: texts, used)

end

def unknownText : String := "unknown"

def plainOrUnknown : Option TypeExpr → String
  | none => unknownText
  | some type => type.plain

end TypeExpr

end ApiManual
