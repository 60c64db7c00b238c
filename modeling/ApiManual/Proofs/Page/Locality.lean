import ApiManual.Proofs.Manual.LinkTargets
import ApiManual.Proofs.Site.Trace
import Mathlib.Logic.Relation

/-!
# Rendering is local

The page of an entity is made from the entity and from what it is made of: its members,
parameters and type parameters, what these are made of, and so on.  Catalogs that share all of
this give the same page.  Other entities have no influence, and neither have entry points,
parents, and what types refer to.

A catalog is asked about the entity that is being rendered, and for members, parameters and type
parameters.  All three are parts of that entity, and the members with pages of their own are parts
again, so the argument goes down along the nesting of members.
-/

namespace ApiManual

namespace Catalog

variable {first second : Catalog} {ids : List EntityId} {declaration : Declaration}
  {entity : Entity}

/-- Two catalogs have the same entities under the given identifiers. -/
def AgreeOn (first second : Catalog) (ids : List EntityId) : Prop :=
  ∀ id ∈ ids, first.entity? id = second.entity? id

/-- Two catalogs have the same entities under some identifiers, and everything that these
entities are made of is among them. -/
structure Share (first second : Catalog) (shared : EntityId → Prop) : Prop where
  same : ∀ id, shared id → first.entity? id = second.entity? id
  closed : ∀ id entity, shared id → first.entity? id = some entity →
    ∀ part ∈ entity.declaration.references, shared part

theorem AgreeOn.entities (agree : first.AgreeOn second ids) :
    first.entities ids = second.entities ids :=
  List.filterMap_congr agree

theorem AgreeOn.members (agree : first.AgreeOn second declaration.references) :
    first.entities declaration.members = second.entities declaration.members := by
  apply AgreeOn.entities
  intro id listed
  exact agree id (List.mem_append_left _ (List.mem_append_left _ listed))

theorem AgreeOn.parameters (agree : first.AgreeOn second declaration.references) :
    first.parameters declaration = second.parameters declaration := by
  have same : first.entities declaration.parameters = second.entities declaration.parameters := by
    apply AgreeOn.entities
    intro id listed
    exact agree id (List.mem_append_left _ (List.mem_append_right _ listed))
  rw [Catalog.parameters, Catalog.parameters, same]

theorem AgreeOn.typeParameters (agree : first.AgreeOn second declaration.references) :
    first.typeParameters declaration = second.typeParameters declaration := by
  have same : first.entities declaration.typeParameters =
      second.entities declaration.typeParameters := by
    apply AgreeOn.entities
    intro id listed
    exact agree id (List.mem_append_right _ listed)
  rw [Catalog.typeParameters, Catalog.typeParameters, same]

/-- Two catalogs show the same of an identifier: they differ at most in the parent that they
give it, which is not shown. -/
structure ShowAlike (first second : Catalog) (id : EntityId) : Prop where
  parameters : (first.view id).parameters = (second.view id).parameters
  typeParameters : (first.view id).typeParameters = (second.view id).typeParameters
  returnType : (first.view id).returnType = (second.view id).returnType

variable {shared : EntityId → Prop} {id : EntityId}

theorem Share.showAlike (share : first.Share second shared) (held : shared id) :
    first.ShowAlike second id := by
  have same := share.same id held
  cases found : first.entity? id with
  | none =>
      have whole : first.view id = second.view id := by
        rw [view_eq_empty found, view_eq_empty (same ▸ found)]
      exact ⟨by rw [whole], by rw [whole], by rw [whole]⟩
  | some entity =>
      have agree : first.AgreeOn second entity.declaration.references :=
        fun part listed => share.same part (share.closed id entity held found part listed)
      have inSecond : second.entity? id = some entity := same ▸ found
      constructor <;> rw [view_eq_viewOf found, view_eq_viewOf inSecond]
      · exact agree.parameters
      · exact agree.typeParameters
      · rfl

end Catalog

/-- An entity is shared together with its parts. -/
def Entity.SharedBy (shared : EntityId → Prop) (entity : Entity) : Prop :=
  ∀ id ∈ entity.id :: entity.declaration.references, shared id

variable {first second : Catalog} {shared : EntityId → Prop} {entity member : Entity}

theorem Entity.SharedBy.agreeOn (own : entity.SharedBy shared)
    (share : first.Share second shared) :
    first.AgreeOn second entity.declaration.references :=
  fun part held => share.same part (own part (List.mem_cons_of_mem _ held))

theorem Entity.SharedBy.showAlike (own : entity.SharedBy shared)
    (share : first.Share second shared) : first.ShowAlike second entity.id :=
  share.showAlike (own entity.id List.mem_cons_self)

/-! ## Single entities -/

/-- The signature of an entity shows its parts and nothing else of the catalog. -/
theorem Signature.lines_eq_of_share (share : first.Share second shared)
    (own : entity.SharedBy shared) (title : String) :
    lines first entity title = lines second entity title := by
  have members := (own.agreeOn share).members
  obtain ⟨parameters, typeParameters, returnType⟩ := own.showAlike share
  obtain ⟨id, name, parent, location, doc, declaration⟩ := entity
  cases declaration <;> simp_all only [lines, callable, Declaration.members]

/-- What follows the signature links the types of an entity and of its parameters. -/
theorem Prose.details_eq_of_share (share : first.Share second shared)
    (own : entity.SharedBy shared) (doc : DocComment) :
    details first entity doc = details second entity doc := by
  obtain ⟨parameters, typeParameters, returnType⟩ := own.showAlike share
  simp only [details, parameters, typeParameters, returnType]

namespace Page

variable {language : String}

theorem body_eq_of_share (share : first.Share second shared) (own : entity.SharedBy shared)
    (title : String) (level : Nat) :
    body first language entity title level = body second language entity title level := by
  rw [body, body, Signature.lines_eq_of_share share own, Prose.details_eq_of_share share own]

theorem item_eq_of_share (share : first.Share second shared) (own : entity.SharedBy shared)
    (title : String) (level : Nat) :
    item first language entity title level = item second language entity title level := by
  rw [item, item, body_eq_of_share share own]

/-! ## Containers -/

theorem listed_eq_of_agreeOn (agree : first.AgreeOn second entity.declaration.references)
    (group : MemberGroup) : listed first entity group = listed second entity group := by
  have members : first.entities entity.members = second.entities entity.members :=
    agree.members
  rw [listed, listed, members]

theorem nested_eq_of_agreeOn (agree : first.AgreeOn second entity.declaration.references) :
    nested first entity = nested second entity := by
  unfold nested
  apply List.flatMap_congr
  intro group _
  rw [listed_eq_of_agreeOn agree]

/-- What an entity lists is shared when the entity is. -/
theorem sharedBy_of_mem_listed (share : first.Share second shared)
    (own : entity.SharedBy shared) {group : MemberGroup}
    (inGroup : member ∈ listed first entity group) : member.SharedBy shared := by
  have held : member ∈ first.entities entity.members := (List.mem_filter.mp inGroup).1
  obtain ⟨id, listedId, found⟩ := List.mem_filterMap.mp held
  have sharedId : shared id := own id
    (List.mem_cons_of_mem _ (List.mem_append_left _ (List.mem_append_left _ listedId)))
  have named : member.id = id := (Registry.get?_eq_some_iff.mp found).2
  refine List.forall_mem_cons.mpr ⟨named ▸ sharedId, ?_⟩
  exact share.closed id member sharedId found

theorem parts_eq_of_share (share : first.Share second shared) (own : entity.SharedBy shared)
    (group : MemberGroup) :
    parts first language entity group = parts second language entity group := by
  rw [parts, parts, ← listed_eq_of_agreeOn (own.agreeOn share)]
  apply List.map_congr_left
  intro member inGroup
  rw [part, part, item_eq_of_share share (sharedBy_of_mem_listed share own inGroup)]

/-- Catalogs that share an entity give it the same page, apart from the pages below it. -/
theorem alone_render_eq_of_share (share : first.Share second shared)
    (own : entity.SharedBy shared) (identity : Identity) :
    (render first language entity identity).alone =
      (render second language entity identity).alone := by
  have parts : parts first language entity = parts second language entity := by
    funext group
    exact parts_eq_of_share share own group
  rw [render, render]
  cases entity.kind.memberGroups? with
  | none =>
      dsimp only
      rw [item_eq_of_share share own]
  | some groups =>
      simp only [alone, body_eq_of_share share own, parts]

theorem eq_of_alone_eq {left right : Page} (own : left.alone = right.alone)
    (below : left.members = right.members) : left = right := by
  cases left
  cases right
  simp_all [alone]

/-- Catalogs that share an entity give it the same page, with the same pages below it. The
induction is on how deep members nest. -/
theorem render_eq_of_share (share : first.Share second shared) (entity : Entity)
    (own : entity.SharedBy shared) (identity : Identity) :
    render first language entity identity = render second language entity identity := by
  apply eq_of_alone_eq (alone_render_eq_of_share share own identity)
  rw [members_render, members_render, ← nested_eq_of_agreeOn (own.agreeOn share)]
  apply List.map_congr_left
  intro member inside
  have : first.depth member < first.depth entity := depth_lt_of_mem_nested inside
  obtain ⟨group, _, inGroup⟩ := List.mem_flatMap.mp inside
  exact render_eq_of_share share member
    (sharedBy_of_mem_listed share own (List.mem_filter.mp inGroup).1) (.of member)
termination_by first.depth entity

end Page

/-! ## Reachable parts -/

namespace Catalog

variable {catalog : Catalog} {id part : EntityId}

/-- An entity is made of another one: that one is among its members, parameters or type
parameters. -/
def MadeOf (catalog : Catalog) (whole part : EntityId) : Prop :=
  ∃ entity, catalog.entity? whole = some entity ∧ part ∈ entity.declaration.references

/-- What is reached from an entity by going to parts, to parts of these, and so on. -/
def Reaches (catalog : Catalog) : EntityId → EntityId → Prop :=
  Relation.ReflTransGen catalog.MadeOf

/-- Catalogs that agree on all that is reached from an entity share it. -/
theorem share_reached
    (agree : ∀ part, first.Reaches id part → first.entity? part = second.entity? part) :
    first.Share second (first.Reaches id) where
  same := agree
  closed := by
    intro whole entity reached found part held
    exact .tail reached ⟨entity, found, held⟩

/-- Going to parts never leaves identifiers that hold the parts of all their entities. -/
theorem mem_of_reaches {ids : List EntityId}
    (closed : ∀ whole ∈ ids, ∀ entity ∈ catalog.entity? whole,
      ∀ part ∈ entity.declaration.references, part ∈ ids)
    (start : id ∈ ids) (reached : catalog.Reaches id part) : part ∈ ids := by
  induction reached with
  | refl => exact start
  | tail _ step ih =>
      obtain ⟨entity, found, held⟩ := step
      exact closed _ ih entity found _ held

end Catalog

namespace Page

/-- Two catalogs that agree on an entity and on everything that is reached from it through
members, parameters and type parameters give it the same page under any identity: the same
lines, headings and references, and the same pages of members at every depth. -/
theorem render_is_local (registered : first.entity? entity.id = some entity)
    (agree : ∀ part, first.Reaches entity.id part → first.entity? part = second.entity? part)
    (language : String) (identity : Identity) :
    render first language entity identity = render second language entity identity := by
  apply render_eq_of_share (Catalog.share_reached agree)
  exact List.forall_mem_cons.mpr ⟨.refl, fun part held => .single ⟨entity, registered, held⟩⟩

/-- The shapes after another source file, which lists the class and the function, too, and is the
only entry point. -/
def reexportedShapes : Catalog where
  registry := {
    entities :=
      { id := ⟨"file:all"⟩, name := "all", parent := none
        location := ⟨"src/all.ts", 1, 1⟩, doc := none
        declaration := .sourceFile [⟨"class:Shape"⟩, ⟨"function:area"⟩] } ::
        Manual.geometry "Shape"
    entryPoints := [⟨"file:all"⟩]
    ids_nodup := by decide
    entryPoints_registered := by decide }
  references_registered := by decide
  lineages_end := by decide +kernel
  order := [⟨"file:all"⟩, ⟨"file:geometry"⟩, ⟨"class:Shape"⟩, ⟨"property:measures"⟩,
    ⟨"function:area"⟩]
  order_containersFirst :=
    .cons (by decide) (by decide) (.cons (by decide) (by decide)
      (.cons (by decide) (by decide) (.cons (by decide) (by decide)
        (.cons (by decide) (by decide) .nil))))
  order_complete := by decide

/-- Neither the entry points nor the parent of the class, which are others there, show on the page
of the source file or on the page of the class below it. -/
theorem render_of_shapes_is_local :
    ∃ file, Manual.shapes.entity? ⟨"file:geometry"⟩ = some file ∧
      Manual.shapes.parent? ⟨"class:Shape"⟩ ≠ reexportedShapes.parent? ⟨"class:Shape"⟩ ∧
      (render Manual.shapes "ts" file ⟨"shapes", ⟨"file:geometry"⟩⟩).members.length = 1 ∧
      render Manual.shapes "ts" file ⟨"shapes", ⟨"file:geometry"⟩⟩ =
        render reexportedShapes "ts" file ⟨"shapes", ⟨"file:geometry"⟩⟩ := by
  have agree : Manual.shapes.AgreeOn reexportedShapes [⟨"file:geometry"⟩, ⟨"class:Shape"⟩,
      ⟨"property:measures"⟩, ⟨"function:area"⟩] := by
    simp only [Catalog.AgreeOn, List.forall_mem_cons]
    exact ⟨rfl, rfl, rfl, rfl, List.forall_mem_nil _⟩
  refine ⟨_, rfl, by decide +kernel, by decide +kernel, ?_⟩
  apply render_is_local rfl
  intro part reached
  exact agree part (Catalog.mem_of_reaches (by decide) List.mem_cons_self reached)

end Page

end ApiManual
