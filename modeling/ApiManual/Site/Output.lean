import ApiManual.Diagnostic
import ApiManual.Json.Writer
import ApiManual.Site
import ApiManual.Site.Contents
import ApiManual.Site.Stripping

/-!
# Output documents

Every entity that a document refers to is either defined as a link target or,
when neither it nor any of its lineage is documented, stripped from the content
and reported.
-/

namespace ApiManual

/-- A document to be written: its path below the output directory and its
lines. -/
structure Document where
  location : String
  content : List String
  deriving DecidableEq, Repr

namespace Document

/-- The text of a document, with a line end after every line. -/
def text (document : Document) : String :=
  Text.joined "\n" document.content ++ "\n"

def toJson (document : Document) : Json :=
  .object
    [("file_location", .string document.location),
     ("content", Json.ofList .string document.content)]

end Document

namespace Site

/-- What is reported of an entity that is not documented. -/
def undocumentedMessage : String :=
  "declaration is used as a type but is not exported from any entry file"

/-- The entities that a page refers to: those its content uses, then those that
only its table of contents links to. -/
def references (catalog : Catalog) (showContents : Bool) (page : Page) :
    References :=
  if showContents then
    page.used.insertAll (Contents.linkedIds catalog page)
  else page.used

/-- The link from the document at a path to where an entity is documented. -/
def link? (catalog : Catalog) (site : Site) (path : String) (id : EntityId) :
    Option String :=
  (site.resolve? catalog id).map
    (DocumentPath.relative (DocumentPath.directory path))

def definition? (catalog : Catalog) (site : Site) (path : String)
    (id : EntityId) : Option String :=
  (site.link? catalog path id).map (Markdown.linkDefinition id)

theorem definition?_of_resolved {catalog : Catalog} {site : Site} {path : String}
    {id : EntityId} {target : String} (found : site.resolve? catalog id = some target) :
    site.definition? catalog path id = some (Markdown.linkDefinition id
      (DocumentPath.relative (DocumentPath.directory path) target)) := by
  rw [definition?, link?, found]
  rfl

theorem definition?_of_unresolved {catalog : Catalog} {site : Site} {path : String}
    {id : EntityId} (missing : site.resolve? catalog id = none) :
    site.definition? catalog path id = none := by
  rw [definition?, link?, missing]
  rfl

/-- The definitions at the end of the document at a path, in the order of the
references. -/
def definitions (catalog : Catalog) (showContents : Bool) (site : Site)
    (path : String) (page : Page) : List String :=
  (references catalog showContents page).ids.filterMap
    (site.definition? catalog path)

def undocumented (catalog : Catalog) (showContents : Bool) (site : Site)
    (page : Page) : List EntityId :=
  (references catalog showContents page).ids.filter fun id =>
    (site.resolve? catalog id).isNone

/-- The content of a page with plain text for every link that leads nowhere. -/
def strippedContent (catalog : Catalog) (showContents : Bool) (site : Site)
    (page : Page) : List String :=
  (site.undocumented catalog showContents page).foldl
    (fun lines id => Stripping.lines id lines) page.content

/-- A document as it is written, and the warnings about it. -/
def documentAt (catalog : Catalog) (showContents : Bool) (site : Site)
    (path : String) (page : Page) : Document × List Diagnostic :=
  let contents := if showContents then Contents.lines catalog page else []
  ({ location := DocumentPath.standardize path
     content := contents ++ site.strippedContent catalog showContents page ++
       site.definitions catalog showContents path page },
   (site.undocumented catalog showContents page).map fun id =>
     .warning id (catalog.entity? id) undocumentedMessage)

def output (catalog : Catalog) (showContents : Bool) (site : Site) :
    List Document × List Diagnostic :=
  let outputs := site.documents.map fun (path, page) =>
    site.documentAt catalog showContents path page
  (outputs.map (·.1), outputs.flatMap (·.2))

end Site

end ApiManual
