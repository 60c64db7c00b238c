import ApiManual.Proofs.Page.Sections
import ApiManual.Proofs.Page.Used
import ApiManual.Proofs.Site.ContentsOrder
import Mathlib.Data.List.Perm.Basic

/-!
# Where members go

A member of a container has a heading on the page of the container, or a page of its own below
it, or it is in no group and is left out.  It is one of the three for each time that it is
listed: no kind is in two groups, so no member is shown twice, and the members that no group
lists are told apart by the same test.
-/

namespace ApiManual

namespace Catalog

variable {catalog : Catalog} {ids : List EntityId} {entity : Entity}

/-- Registered identifiers are those of the entities that they stand for. -/
theorem map_id_entities (registered : ∀ id ∈ ids, id ∈ catalog.registry.ids) :
    (catalog.entities ids).map (·.id) = ids := by
  induction ids with
  | nil => rfl
  | cons id rest ih =>
      rw [List.forall_mem_cons] at registered
      obtain ⟨entity, held, rfl⟩ := List.mem_map.mp registered.1
      have found : catalog.entity? entity.id = some entity :=
        Registry.get?_eq_some_iff.mpr ⟨held, rfl⟩
      have step : catalog.entities (entity.id :: rest) = entity :: catalog.entities rest := by
        rw [entities, List.filterMap_cons, found, entities]
      rw [step, List.map_cons, ih registered.2]

theorem map_id_members (registered : catalog.entity? entity.id = some entity) :
    (catalog.entities entity.members).map (·.id) = entity.members := by
  apply map_id_entities
  intro id listed
  have held : entity ∈ catalog.registry.entities := (Registry.get?_eq_some_iff.mp registered).1
  exact Registry.contains_iff.mp (catalog.references_registered entity held id
    (List.mem_append_left _ (List.mem_append_left _ listed)))

theorem entity?_of_mem_entities (held : entity ∈ catalog.entities ids) :
    catalog.entity? entity.id = some entity := by
  obtain ⟨id, _, found⟩ := List.mem_filterMap.mp held
  obtain ⟨_, rfl⟩ := Registry.get?_eq_some_iff.mp found
  exact found

/-- A group lists a registered entity by its kind. -/
theorem listedIn_id {group : MemberGroup} (held : entity ∈ catalog.entities ids) :
    catalog.listedIn group entity.id = group.lists entity.kind := by
  rw [listedIn, kind?, entity?_of_mem_entities held]
  rfl

end Catalog

/-- The members of a group either all have pages of their own or all do not. -/
theorem Kind.hasOwnDocument_of_group {container : Kind} {group : MemberGroup}
    (grouped : group ∈ container.memberGroups) :
    (∀ kind ∈ group.kinds, kind.hasOwnDocument = true) ∨
      ∀ kind ∈ group.kinds, kind.hasOwnDocument = false := by
  revert group
  cases container <;> decide

namespace Page

open scoped List

variable {catalog : Catalog} {language : String} {entity : Entity} {group : MemberGroup}

/-- What satisfies one of two tests that nothing satisfies together. -/
theorem filter_or_perm {α : Type} {first second : α → Bool}
    (apart : ∀ value, first value → second value = false) (values : List α) :
    (values.filter fun value => first value || second value).Perm
      (values.filter first ++ values.filter second) := by
  induction values with
  | nil => exact .nil
  | cons value rest ih =>
      cases inFirst : first value with
      | true =>
          simpa [inFirst, apart value inFirst] using ih
      | false =>
          cases inSecond : second value with
          | true => simpa [inFirst, inSecond] using (ih.cons value).trans List.perm_middle.symm
          | false => simpa [inFirst, inSecond] using ih

/-- What groups pick together is what they pick one by one. -/
theorem filter_any_perm {groups : List MemberGroup}
    (apart : groups.Pairwise fun left right => ∀ kind ∈ left.kinds, kind ∉ right.kinds)
    (members : List Entity) :
    (members.filter fun member => groups.any (·.lists member.kind)).Perm
      (groups.flatMap fun group => members.filter (group.lists ·.kind)) := by
  induction apart with
  | nil => simp
  | @cons first rest disjoint _ ih =>
      have never : ∀ member : Entity, first.lists member.kind →
          (rest.any (·.lists member.kind)) = false := by
        intro member inFirst
        rw [List.any_eq_false]
        intro other inRest inOther
        exact disjoint other inRest _ (of_decide_eq_true inFirst) (of_decide_eq_true inOther)
      exact (filter_or_perm never members).trans (ih.append_left _)

/-! ## The three parts of the members -/

/-- The members of an entity that its page shows, group by group. -/
def shown (catalog : Catalog) (entity : Entity) : List Entity :=
  entity.kind.memberGroups.flatMap fun group =>
    (listed catalog entity group).filter (!·.kind.hasOwnDocument)

theorem flatMap_headings_sections :
    ((sections catalog entity).flatMap Section.headings).map (·.id) =
      (shown catalog entity).map (·.id) := by
  rw [sections, flatMap_filter, List.flatMap_map, shown, List.map_flatMap, List.map_flatMap]
  apply List.flatMap_congr
  intro group _
  rw [headings_of_members, Section.headings, List.map_map]
  rfl

theorem map_id_members_render (identity : Identity) :
    (render catalog language entity identity).members.map (·.id) =
      (nested catalog entity).map (·.id) := by
  rw [members_render, List.map_map]
  apply List.map_congr_left
  intro member _
  exact id_render catalog language member (.of member)

/-- In a group either all members are shown or all are nested. -/
theorem listed_eq_append (grouped : group ∈ entity.kind.memberGroups) :
    listed catalog entity group =
      (listed catalog entity group).filter (!·.kind.hasOwnDocument) ++
        (listed catalog entity group).filter (·.kind.hasOwnDocument) := by
  have lists : ∀ member ∈ listed catalog entity group, member.kind ∈ group.kinds :=
    fun member inGroup => of_decide_eq_true (List.mem_filter.mp inGroup).2
  rcases Kind.hasOwnDocument_of_group grouped with own | inline
  · have all : (listed catalog entity group).filter (·.kind.hasOwnDocument) =
        listed catalog entity group :=
      List.filter_eq_self.mpr fun member inGroup => own _ (lists member inGroup)
    have none : (listed catalog entity group).filter (!·.kind.hasOwnDocument) = [] :=
      List.filter_eq_nil_iff.mpr fun member inGroup => by simp [own _ (lists member inGroup)]
    rw [all, none, List.nil_append]
  · have none : (listed catalog entity group).filter (·.kind.hasOwnDocument) = [] :=
      List.filter_eq_nil_iff.mpr fun member inGroup => by simp [inline _ (lists member inGroup)]
    have all : (listed catalog entity group).filter (!·.kind.hasOwnDocument) =
        listed catalog entity group :=
      List.filter_eq_self.mpr fun member inGroup => by simp [inline _ (lists member inGroup)]
    rw [all, none, List.append_nil]

/-- The members of an entity are shown, nested or in no group. -/
theorem members_perm (catalog : Catalog) (entity : Entity) :
    (catalog.entities entity.members).Perm
      (shown catalog entity ++ nested catalog entity ++
        ungrouped catalog entity entity.members) := by
  have split : (entity.kind.memberGroups.flatMap fun group => listed catalog entity group).Perm
      (shown catalog entity ++ nested catalog entity) := by
    rw [List.flatMap_congr fun group grouped => listed_eq_append grouped]
    exact (List.flatMap_append_perm _ _ _).symm
  calc catalog.entities entity.members
    _ ~ (catalog.entities entity.members).filter (fun member =>
            entity.kind.memberGroups.any (·.lists member.kind)) ++
          ungrouped catalog entity entity.members :=
        (List.filter_append_perm _ _).symm
    _ ~ (entity.kind.memberGroups.flatMap fun group => listed catalog entity group) ++
          ungrouped catalog entity entity.members :=
        (filter_any_perm entity.kind.memberGroups_disjoint _).append_right _
    _ ~ shown catalog entity ++ nested catalog entity ++
          ungrouped catalog entity entity.members := split.append_right _

/-- Each group finds its own members among those that are shown, and among those that are
nested. -/
theorem filter_listedIn_flatMap {own : Entity → Bool}
    (grouped : group ∈ entity.kind.memberGroups) :
    ((entity.kind.memberGroups.flatMap fun group =>
        (listed catalog entity group).filter own).map (·.id)).filter (catalog.listedIn group) =
      ((listed catalog entity group).filter own).map (·.id) := by
  rw [List.filter_map]
  congr 1
  apply Catalog.filter_flatMap_groups Entity.id _ entity.kind.memberGroups_disjoint group grouped
  intro other member inside
  obtain ⟨held, lists⟩ := List.mem_filter.mp (List.mem_filter.mp inside).1
  rw [Catalog.listedIn_id held]
  exact lists

/-- The identifiers of a group, in the order in which an entity lists its members. -/
theorem filter_listedIn_members (registered : catalog.entity? entity.id = some entity) :
    entity.members.filter (catalog.listedIn group) =
      (listed catalog entity group).map (·.id) := by
  conv_lhs => rw [← Catalog.map_id_members registered, List.filter_map]
  congr 1
  apply List.filter_congr
  intro member held
  exact Catalog.listedIn_id held

/-! ## Telling the parts apart -/

theorem mem_shown_iff {member : Entity} :
    member ∈ shown catalog entity ↔ ∃ group ∈ entity.kind.memberGroups,
      member ∈ listed catalog entity group ∧ member.kind.hasOwnDocument = false := by
  simp only [shown, List.mem_flatMap, List.mem_filter, Bool.not_eq_true']

theorem shown_disjoint_nested : (shown catalog entity).Disjoint (nested catalog entity) := by
  intro member isShown isNested
  obtain ⟨_, _, _, inline⟩ := mem_shown_iff.mp isShown
  cases inline.symm.trans (mem_nested_iff.mp isNested).2.2

/-- What is in a group is apart from what is in none. -/
theorem listed_disjoint_ungrouped (grouped : group ∈ entity.kind.memberGroups) :
    (listed catalog entity group).Disjoint (ungrouped catalog entity entity.members) := by
  intro member inGroup inNone
  have lists : group.lists member.kind := (List.mem_filter.mp inGroup).2
  have none := (List.mem_filter.mp inNone).2
  rw [Bool.not_eq_true', List.any_eq_false] at none
  exact none group grouped lists

theorem shown_disjoint_ungrouped :
    (shown catalog entity).Disjoint (ungrouped catalog entity entity.members) := by
  intro member isShown
  obtain ⟨_, grouped, inGroup, _⟩ := mem_shown_iff.mp isShown
  exact listed_disjoint_ungrouped grouped inGroup

theorem nested_disjoint_ungrouped :
    (nested catalog entity).Disjoint (ungrouped catalog entity entity.members) := by
  intro member isNested
  obtain ⟨_, grouped, inside⟩ := List.mem_flatMap.mp isNested
  exact listed_disjoint_ungrouped grouped (List.mem_filter.mp inside).1

/-- Members that are different have different identifiers. -/
theorem disjoint_ids {first second : List Entity} {ids : List EntityId}
    (firstHeld : first ⊆ catalog.entities ids) (secondHeld : second ⊆ catalog.entities ids)
    (apart : first.Disjoint second) : (first.map (·.id)).Disjoint (second.map (·.id)) := by
  intro id inFirst inSecond
  obtain ⟨member, held, rfl⟩ := List.mem_map.mp inFirst
  obtain ⟨other, otherHeld, same⟩ := List.mem_map.mp inSecond
  have found := Catalog.entity?_of_mem_entities (firstHeld held)
  have otherFound := Catalog.entity?_of_mem_entities (secondHeld otherHeld)
  rw [same, found] at otherFound
  cases otherFound
  exact apart held otherHeld

/-- Each time that an entity lists a member, the member goes one of three ways: its heading is
below that of the page, it has a page of its own below the page, or no group lists it. What the
page shows and what is nested in it keeps the order of the members in each group, and the page
uses all of it. -/
theorem members_go_one_way (registered : catalog.entity? entity.id = some entity)
    (language : String) (identity : Identity) :
    let page := render catalog language entity identity
    ∃ top, page.headings = [top] ∧
      let shown := top.members.map (·.id)
      let nested := page.members.map (·.id)
      let skipped := (ungrouped catalog entity entity.members).map (·.id)
      entity.members.Perm (shown ++ nested ++ skipped) ∧
        shown.Disjoint nested ∧ shown.Disjoint skipped ∧ nested.Disjoint skipped ∧
        (∀ group ∈ entity.kind.memberGroups,
          entity.members.filter (catalog.listedIn group) =
            shown.filter (catalog.listedIn group) ++ nested.filter (catalog.listedIn group)) ∧
        ∀ id ∈ shown ++ nested, id ∈ page.used.ids := by
  refine ⟨_, headings_render_under catalog language entity identity, ?_⟩
  dsimp only
  rw [flatMap_headings_sections, map_id_members_render]
  have within : ∀ member, member ∈ shown catalog entity ++ nested catalog entity ++
      ungrouped catalog entity entity.members → member ∈ catalog.entities entity.members :=
    fun _ held => (members_perm catalog entity).mem_iff.mpr held
  have shownWithin : shown catalog entity ⊆ catalog.entities entity.members :=
    fun member held => within member (List.mem_append_left _ (List.mem_append_left _ held))
  have nestedWithin : nested catalog entity ⊆ catalog.entities entity.members :=
    fun member held => within member (List.mem_append_left _ (List.mem_append_right _ held))
  have skippedWithin :
      ungrouped catalog entity entity.members ⊆ catalog.entities entity.members :=
    fun member held => within member (List.mem_append_right _ held)
  refine ⟨?_, disjoint_ids shownWithin nestedWithin shown_disjoint_nested,
    disjoint_ids shownWithin skippedWithin shown_disjoint_ungrouped,
    disjoint_ids nestedWithin skippedWithin nested_disjoint_ungrouped, ?_, ?_⟩
  · have whole := (members_perm catalog entity).map Entity.id
    rwa [Catalog.map_id_members registered, List.map_append, List.map_append] at whole
  · intro group grouped
    rw [filter_listedIn_members registered, shown, nested, filter_listedIn_flatMap grouped,
      filter_listedIn_flatMap grouped, ← List.map_append, ← listed_eq_append grouped]
  · intro id held
    rw [← List.map_append] at held
    obtain ⟨member, inEither, rfl⟩ := List.mem_map.mp held
    rcases List.mem_append.mp inEither with isShown | isNested
    · obtain ⟨_, grouped, inGroup, _⟩ := mem_shown_iff.mp isShown
      exact mem_used_render_of_listed grouped inGroup
    · obtain ⟨_, grouped, inside⟩ := List.mem_flatMap.mp isNested
      exact mem_used_render_of_listed grouped (List.mem_filter.mp inside).1

/-- The workshop lists a function twice, and the page has two headings for it; the class has a
page of its own, and the property is in no group. -/
theorem members_of_workshop_go_one_way :
    let page := render Contents.workshop "typescript" Contents.workshopFile
      (.of Contents.workshopFile)
    ∃ top, page.headings = [top] ∧
      top.members.map (·.id) = [⟨"function:cut"⟩, ⟨"function:join"⟩, ⟨"function:cut"⟩,
        ⟨"variable:width"⟩] ∧
      page.members.map (·.id) = [⟨"class:Saw"⟩] ∧
      Contents.workshopFile.members.Perm
        (top.members.map (·.id) ++ page.members.map (·.id) ++ [⟨"property:stray"⟩]) ∧
      ∀ id ∈ top.members.map (·.id) ++ page.members.map (·.id), id ∈ page.used.ids := by
  have registered : Contents.workshop.entity? Contents.workshopFile.id =
      some Contents.workshopFile := rfl
  obtain ⟨top, headings, whole, _, _, _, _, used⟩ :=
    members_go_one_way registered "typescript" (.of Contents.workshopFile)
  have listing := headings_render_eq Contents.workshop "typescript" Contents.workshopFile
  rw [headings] at listing
  obtain rfl := List.singleton_inj.mp listing
  refine ⟨_, headings, by decide +kernel, ?_, whole, used⟩
  rw [map_id_members_render]
  decide +kernel

end Page

end ApiManual
