import ApiManual.EntityId
import ApiManual.Text.Lines

/-!
# Markdown

A line is one element of a list; it may still contain line ends where a caller
put them into a header or a list item.
-/

namespace ApiManual.Markdown

/-- An entry of a list, with the list nested below it. An entry with nothing
below it and one with an empty list below it are the same value here, since
both are written as one line. -/
structure ListItem where
  text : String
  items : List ListItem
  deriving Repr, Inhabited

inductive Block where
  | header (level : Nat) (text : String)
  | emptyLine
  | text (text : String)
  | lines (lines : List String)
  | code (language : String) (code : List String)
  | quote (text : String)
  | list (items : List ListItem)
  deriving Repr, Inhabited

/-- The space before the entries of a list, `depth` lists deep. -/
def listIndent (depth : Nat) : String :=
  String.ofList (List.replicate (4 * depth) ' ')

mutual

/-- An entry and all that is nested below it, one line each. -/
def itemLines (depth : Nat) : ListItem → List String
  | ⟨text, items⟩ =>
      (listIndent depth ++ "- " ++ text) :: listLines (depth + 1) items

def listLines (depth : Nat) : List ListItem → List String
  | [] => []
  | item :: rest => itemLines depth item ++ listLines depth rest

end

def quotedLine (line : String) : String :=
  if line.isEmpty then ">" else "> " ++ line

/-- A header of a level, which is taken to be at least one and at most six. -/
def headerLine (level : Nat) (text : String) : String :=
  String.ofList (List.replicate (min (max level 1) 6) '#') ++ " " ++ text

/-- The line that closes a block of code. -/
def fence : String := "```"

/-- The lines of a block. Code is followed by an empty line. -/
def Block.toLines : Block → List String
  | .header level title => [headerLine level title]
  | .emptyLine => [""]
  | .text content => Text.lines content
  | .lines given => given
  | .code language body => (fence ++ language) :: body ++ [fence, ""]
  | .quote content => (Text.lines content).map quotedLine
  | .list items => listLines 0 items

def toLines (blocks : List Block) : List String := blocks.flatMap Block.toLines

/-- A link to an entity, to be resolved by a definition: `[text][id]`. -/
def link (text : String) (id : EntityId) : String :=
  "[" ++ text ++ "][" ++ id.text ++ "]"

/-- The definition that resolves the links to an entity: `[id]: target`. -/
def linkDefinition (id : EntityId) (target : String) : String :=
  "[" ++ id.text ++ "]: " ++ target

/-- A span of code. The fence is widened when the text contains a backtick. -/
def inlineCode (text : String) : String :=
  if text.toList.contains '\x60' then "`` " ++ text ++ " ``"
  else "`" ++ text ++ "`"

end ApiManual.Markdown
