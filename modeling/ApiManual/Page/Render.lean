import ApiManual.MemberGroup
import ApiManual.Page
import ApiManual.Page.Prose
import ApiManual.Page.Signature

/-!
# Rendering entities

A source file or namespace becomes a page that shows its simple members and
lists its classes, interfaces and namespaces, which get pages of their own.  A
class or interface shows all of its members.  Anything else is shown alone.
-/

namespace ApiManual

open Markdown (Block ListItem)

def titleLevel : Nat := 1

def groupLevel : Nat := titleLevel + 1

def memberLevel : Nat := titleLevel + 2

namespace Page

/-- The heading, signature and prose of an entity, and the references that they
use. The entity counts as used itself. -/
def body (catalog : Catalog) (language : String) (entity : Entity)
    (title : String) (level : Nat) : List Block × References :=
  let doc := entity.docComment
  let signature := Signature.lines catalog entity title
  let code := if signature.isEmpty then [] else [.code language signature]
  let (details, used) :=
    (Prose.details catalog entity doc).run (.singleton entity.id)
  (.header level title :: .emptyLine :: Prose.introduction doc ++ code ++ details, used)

/-- An entity without its members, under a heading of the given level. -/
def item (catalog : Catalog) (language : String) (entity : Entity)
    (title : String) (level : Nat) : Page :=
  let (blocks, used) := body catalog language entity title level
  { id := entity.id
    content := Markdown.toLines blocks
    headings := [⟨title, entity.id, []⟩]
    used
    members := [] }

/-- What a member contributes to the page of its container. -/
structure Part where
  content : List String
  headings : List Heading
  entries : List ListItem
  references : List EntityId

/-- The list entry of a member that gets a page of its own. -/
def entry (member : Entity) : ListItem :=
  let summary := member.docComment.summary
  let link := Markdown.link member.name member.id
  ⟨if summary.isEmpty then link else link ++ " - " ++ summary, []⟩

/-- The part of a member: an entry when it gets a page of its own, and otherwise
the member itself. -/
def part (catalog : Catalog) (language : String) (member : Entity) : Part :=
  if member.kind.hasOwnDocument then
    { content := [], headings := [], entries := [entry member],
      references := [member.id] }
  else
    let shown := item catalog language member member.name memberLevel
    { content := shown.content, headings := shown.headings, entries := [],
      references := shown.used.ids }

/-- The members of an entity that one of its groups lists, in order. -/
def listed (catalog : Catalog) (entity : Entity) (group : MemberGroup) :
    List Entity :=
  (catalog.entities entity.members).filter (group.lists ·.kind)

/-- Those of some members of a container that none of its groups lists. They do
not appear on its page. -/
def ungrouped (catalog : Catalog) (container : Entity)
    (members : List EntityId) : List Entity :=
  (catalog.entities members).filter fun member =>
    !container.kind.memberGroups.any (·.lists member.kind)

def parts (catalog : Catalog) (language : String) (entity : Entity)
    (group : MemberGroup) : List Part :=
  (listed catalog entity group).map (part catalog language)

/-- The section of a group with the given parts; nothing when it has none. -/
def groupBlocks (group : MemberGroup) (parts : List Part) : List Block :=
  if parts.isEmpty then []
  else
    let entries := parts.flatMap (·.entries)
    .header groupLevel group.label :: .emptyLine ::
      .lines (parts.flatMap (·.content)) ::
      (if entries.isEmpty then [] else [.list entries, .emptyLine])

/-- The members of an entity that get pages of their own, group by group. -/
def nested (catalog : Catalog) (entity : Entity) : List Entity :=
  entity.kind.memberGroups.flatMap fun group =>
    (listed catalog entity group).filter (·.kind.hasOwnDocument)

/-- A member that gets a page of its own nests less deeply than its
container. -/
theorem depth_lt_of_mem_nested {catalog : Catalog} {entity member : Entity}
    (inside : member ∈ nested catalog entity) :
    catalog.depth member < catalog.depth entity := by
  simp only [nested, listed, Catalog.entities, List.mem_flatMap,
    List.mem_filter, List.mem_filterMap] at inside
  obtain ⟨_, _, ⟨⟨id, listed, found⟩, _⟩, _⟩ := inside
  exact Catalog.depth_lt listed found

/-- The page of an entity under an identity. Code is marked as being in the
given language. -/
def render (catalog : Catalog) (language : String) (entity : Entity)
    (identity : Identity) : Page :=
  match entity.kind.memberGroups? with
  | none =>
      { item catalog language entity identity.title titleLevel with
        id := identity.id }
  | some groups =>
      let (blocks, used) :=
        body catalog language entity identity.title titleLevel
      let parts := groups.map fun group =>
        (group, parts catalog language entity group)
      let sections := parts.flatMap fun (group, parts) => groupBlocks group parts
      let shown := parts.flatMap (·.2)
      { id := identity.id
        content := Markdown.toLines (blocks ++ sections)
        headings := [⟨identity.title, identity.id, shown.flatMap (·.headings)⟩]
        used := used.insertAll (shown.flatMap (·.references))
        members := (nested catalog entity).attach.map fun ⟨member, _inside⟩ =>
          render catalog language member (.of member) }
termination_by catalog.depth entity
decreasing_by exact depth_lt_of_mem_nested _inside

@[simp] theorem id_render (catalog : Catalog) (language : String)
    (entity : Entity) (identity : Identity) :
    (render catalog language entity identity).id = identity.id := by
  rw [render]
  split <;> rfl

/-- The pages below a page are those of the nested members, each under its own
name. -/
theorem members_render (catalog : Catalog) (language : String)
    (entity : Entity) (identity : Identity) :
    (render catalog language entity identity).members =
      (nested catalog entity).map fun member =>
        render catalog language member (.of member) := by
  rw [render]
  split
  · next noGroups => simp [nested, Kind.memberGroups, noGroups, item]
  · dsimp only
    exact List.attach_map_val (f := fun member : Entity =>
      render catalog language member (.of member))

end Page

end ApiManual
