import ApiManual.Catalog
import ApiManual.Markdown
import ApiManual.MemberGroup
import ApiManual.Page

/-!
# Tables of contents

A link to each top heading of a page, and below it one entry for each group of
members with links to the headings of that group.  Groups without headings do
not appear, and neither does a top heading without any group.
-/

namespace ApiManual

open Markdown (Block ListItem)

namespace Contents

/-- A top heading with the headings below it, by group. -/
structure Entry where
  heading : Heading
  groups : List (MemberGroup × List Heading)

/-- The headings whose entities a group lists. -/
def headingsIn (catalog : Catalog) (headings : List Heading)
    (group : MemberGroup) : List Heading :=
  headings.filter fun heading => (catalog.kind? heading.id).any group.lists

/-- The groups that have headings, with these headings. -/
def grouped (catalog : Catalog) (groups : List MemberGroup)
    (headings : List Heading) : List (MemberGroup × List Heading) :=
  (groups.map fun group => (group, headingsIn catalog headings group)).filter
    (!·.2.isEmpty)

def entries (catalog : Catalog) (page : Page) : List Entry :=
  let groups := ((catalog.kind? page.id).map (·.memberGroups)).getD []
  (page.headings.map fun heading =>
    { heading, groups := grouped catalog groups heading.members }).filter
    (!·.groups.isEmpty)

def link (heading : Heading) : String := Markdown.link heading.title heading.id

def item (entry : Entry) : ListItem :=
  ⟨link entry.heading, entry.groups.map fun (group, headings) =>
    ⟨group.label, headings.map fun heading => ⟨link heading, []⟩⟩⟩

/-- The lines of the table of contents of a page; none when it has no entry. -/
def lines (catalog : Catalog) (page : Page) : List String :=
  let entries := entries catalog page
  if entries.isEmpty then []
  else
    Markdown.toLines
      [.header 1 "Table of contents", .emptyLine, .list (entries.map item),
       .emptyLine]

/-- The entities that the table of contents of a page links to, from top to
bottom. -/
def linkedIds (catalog : Catalog) (page : Page) : List EntityId :=
  (entries catalog page).flatMap fun entry =>
    entry.heading.id ::
      entry.groups.flatMap fun (_, headings) => headings.map (·.id)

end Contents

end ApiManual
