import ApiManual.Catalog
import ApiManual.Entries
import ApiManual.Page
import ApiManual.Site.Path
import ApiManual.Slug

/-!
# Sites

Two policies meet here: a page placed at a path replaces the one placed there
before, but the first heading that documents an entity stays its anchor.
-/

namespace ApiManual

/-- Pages by path, and the anchor of each documented entity, both in the order
in which they were first added. The pages have no members: these are placed on
their own. -/
structure Site where
  documents : List (String × Page)
  anchors : List (EntityId × String)

namespace Site

def empty : Site := ⟨[], []⟩

def anchor? (site : Site) (id : EntityId) : Option String :=
  site.anchors.lookup id

def paths (site : Site) : List String := site.documents.map (·.1)

def place (site : Site) (path : String) (page : Page) : Site :=
  { site with documents := Entries.put path page site.documents }

/-- Gives an entity an anchor, unless it has one. -/
def addAnchor (site : Site) (id : EntityId) (target : String) : Site :=
  if (site.anchor? id).isSome then site
  else { site with anchors := site.anchors ++ [(id, target)] }

def target (path title : String) : String := path ++ "#" ++ slug title

mutual

/-- Indexes a heading on a document, then those below it. -/
def indexHeading (path : String) (site : Site) : Heading → Site
  | ⟨title, id, members⟩ =>
      indexHeadings path (site.addAnchor id (target path title)) members

def indexHeadings (path : String) (site : Site) : List Heading → Site
  | [] => site
  | heading :: rest => indexHeadings path (indexHeading path site heading) rest

end

mutual

/-- Places a page at a path and its members, in order, in a directory below it.
When a member is not registered the rest is left out; what was placed before
stays. -/
def add (catalog : Catalog) (extension path : String) (site : Site) :
    Page → Site × Option Error
  | ⟨id, content, headings, used, members⟩ =>
      addMembers catalog extension path
        ((indexHeadings path site headings).place path
          ⟨id, content, headings, used, []⟩) members

def addMembers (catalog : Catalog) (extension path : String) (site : Site) :
    List Page → Site × Option Error
  | [] => (site, none)
  | member :: rest =>
      match catalog.entity? member.id with
      | none => (site, some (.unknownEntity member.id))
      | some entity =>
          match add catalog extension
            (DocumentPath.member path entity.name extension) site member with
          | (site, some error) => (site, some error)
          | (site, none) => addMembers catalog extension path site rest

end

/-- Places the page of an entry point at the path that derives from its source
file. -/
def addEntry (catalog : Catalog) (extension : String) (site : Site)
    (page : Page) : Site × Option Error :=
  match catalog.entity? page.id with
  | none => (site, some (.unknownEntity page.id))
  | some entity =>
      match DocumentPath.entry? entity.location.fileName extension with
      | none =>
          (site, some (.invalidDocumentPath page.id entity.location.fileName))
      | some path => add catalog extension path site page

/-- The anchor at which an entity is documented: its own, or else that of the
nearest of its lineage that has one. -/
def resolve? (catalog : Catalog) (site : Site) (id : EntityId) :
    Option String :=
  (catalog.lineage id).findSome? site.anchor?

end Site

end ApiManual
