import ApiManual.Entries
import ApiManual.Text.Lines

/-!
# Documentation comments

The text attached to an entity: a summary paragraph, a free description, and
blocks that each begin with a tag line such as `@param name description`.  A
comment is read line by line.  One block is open at a time; a tag line ends it
and opens the next.
-/

namespace ApiManual

/-- A documentation comment, taken apart. Parameters come in the order of their
first description; a comment without a reason is deprecated all the same. -/
structure DocComment where
  summary : String
  description : Option String
  params : List (String × String)
  returns : Option String
  deprecated : Option String
  isBeta : Bool
  isInternal : Bool
  seeAlso : List String
  examples : List String
  deriving DecidableEq, Repr

namespace DocComment

def empty : DocComment where
  summary := ""
  description := none
  params := []
  returns := none
  deprecated := none
  isBeta := false
  isInternal := false
  seeAlso := []
  examples := []

/-! ## Tag lines -/

/-- What a tag line announces. Tags that mean nothing here still end the block
before them. -/
inductive Tag where
  | param (name : String)
  | returns
  | deprecated
  | see
  | example
  | beta
  | internal
  | other
  deriving DecidableEq, Repr

/-- What follows the `@` of a tag line. -/
def tagText? (line : List Char) : Option (List Char) :=
  match Text.trimChars line with
  | '@' :: rest => some rest
  | _ => none

/-- A parameter's name and the beginning of its description, which may follow a
dash. -/
def paramOpening (text : List Char) : Tag × List Char :=
  let (name, rest) := Text.firstWord text
  let description := Text.trimChars rest
  (.param (String.ofList name),
    (['-', ' '].isPrefixOf? description).getD description)

/-- The tag of a tag line, and the text that follows it. -/
def tagOpening (text : List Char) : Tag × List Char :=
  let (name, rest) := Text.firstWord text
  let opening := Text.trimChars rest
  match String.ofList name with
  | "param" => paramOpening opening
  | "returns" | "return" => (.returns, opening)
  | "deprecated" => (.deprecated, opening)
  | "see" => (.see, opening)
  | "example" => (.example, opening)
  | "beta" => (.beta, opening)
  | "internal" => (.internal, opening)
  | _ => (.other, opening)

/-! ## Blocks -/

/-- Whether a line, but for the space before it, begins with a fence. -/
def isFence (line : List Char) : Bool :=
  ("```".toList.isPrefixOf? (Text.trimChars line)).isSome

def piece (text : List Char) : List (List Char) :=
  if text = [] then [] else [text]

namespace Tag

/-- What a block keeps of the text on its tag line. -/
def keptOpening (opening : List Char) : Tag → List (List Char)
  | .param _ | .returns | .deprecated | .see => piece opening
  | .example | .beta | .internal | .other => []

/-- What a block keeps of a line below its tag line: a piece of prose, or code as
it stands but for fences. -/
def kept (line : List Char) : Tag → List (List Char)
  | .param _ | .returns | .deprecated | .see => piece (Text.trimChars line)
  | .example => if isFence line then [] else [line]
  | .beta | .internal | .other => []

end Tag

def prose (kept : List (List Char)) : String :=
  Text.joined " " (kept.map String.ofList)

/-- Lines of code without empty ones at either end. -/
def code (kept : List (List Char)) : String :=
  String.ofList (Text.dropBoth (· = '\n')
    (Text.joined "\n" (kept.map String.ofList)).toList)

/-- Sets the mark of a tag that says all on its own line. -/
def mark (doc : DocComment) : Tag → DocComment
  | .beta => { doc with isBeta := true }
  | .internal => { doc with isInternal := true }
  | _ => doc

/-- Adds what a block says in the lines that are kept of it. -/
def addBlock (doc : DocComment) (kept : List (List Char)) : Tag → DocComment
  | .param name =>
      { doc with params := Entries.put name (prose kept) doc.params }
  | .returns => { doc with returns := some (prose kept) }
  | .deprecated => { doc with deprecated := some (prose kept) }
  | .see =>
      if kept.isEmpty then doc
      else { doc with seeAlso := doc.seeAlso ++ [prose kept] }
  | .example =>
      if Text.isBlankText (code kept) then doc
      else { doc with examples := doc.examples ++ [code kept] }
  | .beta | .internal | .other => doc

/-! ## Reading -/

inductive Place where
  | summary
  | description
  | block (tag : Tag)

/-- A comment of which some lines have been read: what the ended blocks say, what
is kept of the open one, and the lines before the first tag line. -/
structure Reading where
  doc : DocComment
  place : Place
  kept : List (List Char)
  summary : List (List Char)
  description : List (List Char)

namespace Reading

def start : Reading where
  doc := empty
  place := .summary
  kept := []
  summary := []
  description := []

/-- What the blocks say once the open one has ended. -/
def closed (reading : Reading) : DocComment :=
  match reading.place with
  | .summary | .description => reading.doc
  | .block tag => addBlock reading.doc reading.kept tag

def opened (reading : Reading) (tag : Tag) (opening : List Char) : Reading :=
  { reading with
    doc := mark reading.closed tag
    place := .block tag
    kept := tag.keptOpening opening }

/-- Takes a line without a tag. An empty line ends the summary once that has
begun. -/
def continued (reading : Reading) (line : List Char) : Reading :=
  let trimmed := Text.trimChars line
  match reading.place with
  | .summary =>
      if trimmed ≠ [] then
        { reading with summary := reading.summary ++ [trimmed] }
      else if reading.summary = [] then reading
      else { reading with place := .description }
  | .description =>
      { reading with description := reading.description ++ [trimmed] }
  | .block tag => { reading with kept := reading.kept ++ tag.kept line }

def step (reading : Reading) (line : List Char) : Reading :=
  match tagText? line with
  | some text =>
      let (tag, opening) := tagOpening text
      reading.opened tag opening
  | none => reading.continued line

def finished (reading : Reading) : DocComment :=
  let description :=
    Text.trim (Text.joined "\n" (reading.description.map String.ofList))
  { reading.closed with
    summary := Text.joined " " (reading.summary.map String.ofList)
    description := if description = "" then none else some description }

end Reading

def parse (text : String) : DocComment :=
  ((Text.linesOf text.toList).foldl Reading.step .start).finished

/-! ## Questions -/

/-- Whether a comment says nothing. Release marks and see-also entries do not
count. -/
def isEmpty (doc : DocComment) : Bool :=
  doc.summary.isEmpty && doc.description.isNone && doc.params.isEmpty &&
    doc.returns.isNone && doc.deprecated.isNone && doc.examples.isEmpty

/-- The description of a parameter, when there is one and it is not empty. -/
def param? (doc : DocComment) (name : String) : Option String :=
  (doc.params.lookup name).filter (!·.isEmpty)

end DocComment

end ApiManual
