import ApiManual.Proofs.Manual.Placements
import ApiManual.Proofs.Site.Accounting

/-!
# What is documented

An entity is documented when it is an entry point or when a documented entity lists it in one
of its groups of members.  These are exactly the entities that have anchors on the site of a
manual: a member either has a heading on the page of its container or a page of its own, and
a container that is documented has a page itself.

So a document causes a warning for an entity exactly when its content uses that entity and
neither the entity nor any of its ancestors is documented.
-/

namespace ApiManual

namespace Catalog

/-- An entity is an entry point, or a documented entity lists it in one of its groups. -/
inductive Documented (catalog : Catalog) : EntityId → Prop where
  | entryPoint {id : EntityId} (listed : id ∈ catalog.registry.entryPoints) :
      Documented catalog id
  | member {container member : Entity} {group : MemberGroup}
      (documented : Documented catalog container.id)
      (registered : catalog.entity? container.id = some container)
      (listed : member.id ∈ container.members)
      (found : catalog.entity? member.id = some member)
      (grouped : group ∈ container.kind.memberGroups) (lists : group.lists member.kind) :
      Documented catalog member.id

end Catalog

namespace Page

variable {catalog : Catalog} {entity : Entity} {language : String} {group : MemberGroup}
  {member : Entity}

theorem mem_listed_iff :
    member ∈ listed catalog entity group ↔
      member.id ∈ entity.members ∧ catalog.entity? member.id = some member ∧
        group.lists member.kind := by
  simp only [listed, Catalog.entities, List.mem_filter, List.mem_filterMap]
  constructor
  · rintro ⟨⟨id, held, found⟩, lists⟩
    obtain ⟨_, rfl⟩ := Registry.get?_eq_some_iff.mp found
    exact ⟨held, found, lists⟩
  · rintro ⟨held, found, lists⟩
    exact ⟨⟨member.id, held, found⟩, lists⟩

theorem headings_part (member : Entity) :
    (part catalog language member).headings =
      if member.kind.hasOwnDocument then [] else [⟨member.name, member.id, []⟩] := by
  rw [part]
  split <;> rfl

/-- The parts of a container have headings for the members that it lists and that have no
pages of their own. -/
theorem mem_listings_parts {groups : List MemberGroup} {heading : Heading} :
    heading ∈ Heading.listings (((groups.map fun group =>
        (group, parts catalog language entity group)).flatMap (·.2)).flatMap (·.headings)) ↔
      ∃ group ∈ groups, ∃ member ∈ listed catalog entity group,
        member.kind.hasOwnDocument = false ∧ ⟨member.name, member.id, []⟩ = heading := by
  have leaf : ∀ member : Entity, ∀ top ∈ (part catalog language member).headings,
      heading ∈ top.listing → member.kind.hasOwnDocument = false ∧
        ⟨member.name, member.id, []⟩ = heading := by
    intro member top shown inside
    rw [headings_part] at shown
    split at shown
    · cases shown
    · next own =>
        rw [List.mem_singleton] at shown
        subst shown
        rw [Heading.listing, Heading.listings, List.mem_singleton] at inside
        exact ⟨eq_false_of_ne_true own, inside.symm⟩
  rw [Heading.mem_listings]
  constructor
  · rintro ⟨top, shown, inside⟩
    obtain ⟨_, inShown, held⟩ := List.mem_flatMap.mp shown
    obtain ⟨_, inSections, inParts⟩ := List.mem_flatMap.mp inShown
    obtain ⟨group, inGroups, rfl⟩ := List.mem_map.mp inSections
    obtain ⟨member, inGroup, rfl⟩ := List.mem_map.mp inParts
    exact ⟨group, inGroups, member, inGroup, leaf member top held inside⟩
  · rintro ⟨group, inGroups, member, inGroup, inline, rfl⟩
    have held : (⟨member.name, member.id, []⟩ : Heading) ∈
        (part catalog language member).headings := by
      rw [headings_part, inline]
      exact List.mem_singleton_self _
    exact ⟨_, List.mem_flatMap.mpr ⟨_, List.mem_flatMap.mpr
      ⟨_, List.mem_map_of_mem inGroups, List.mem_map_of_mem inGroup⟩, held⟩,
      Heading.mem_listing_self _⟩

/-- The page of an entity has one heading for the entity, and below it headings for the members
that it lists and that have no pages of their own. -/
theorem headings_render_as {identity : Identity} (own : identity.id = entity.id) : ∃ members,
    (render catalog language entity identity).headings =
        [⟨identity.title, entity.id, members⟩] ∧
      ∀ heading, heading ∈ Heading.listings members ↔ ∃ group ∈ entity.kind.memberGroups,
        ∃ member ∈ listed catalog entity group,
          member.kind.hasOwnDocument = false ∧ ⟨member.name, member.id, []⟩ = heading := by
  rw [render, Kind.memberGroups]
  cases entity.kind.memberGroups? with
  | none => exact ⟨[], rfl, fun _ => by simp [Heading.listings]⟩
  | some groups =>
      rw [own]
      exact ⟨_, rfl, fun _ => mem_listings_parts⟩

theorem headings_render : ∃ members,
    (render catalog language entity (.of entity)).headings =
        [⟨entity.name, entity.id, members⟩] ∧
      ∀ heading, heading ∈ Heading.listings members ↔ ∃ group ∈ entity.kind.memberGroups,
        ∃ member ∈ listed catalog entity group,
          member.kind.hasOwnDocument = false ∧ ⟨member.name, member.id, []⟩ = heading :=
  headings_render_as rfl

/-- The page of an entity has headings for the entity itself and for the members that it lists
and that have no pages of their own. -/
theorem exists_heading_render_iff {id : EntityId} :
    (∃ heading ∈ Heading.listings (render catalog language entity (.of entity)).headings,
      heading.id = id) ↔
      entity.id = id ∨ ∃ group ∈ entity.kind.memberGroups,
        ∃ member ∈ listed catalog entity group,
          member.kind.hasOwnDocument = false ∧ member.id = id := by
  obtain ⟨members, top, below⟩ := @headings_render catalog entity language
  simp only [top, Heading.listings, Heading.listing, List.append_nil, List.exists_mem_cons_iff,
    below]
  refine or_congr_right ⟨?_, ?_⟩
  · rintro ⟨heading, ⟨group, inGroups, member, inGroup, inline, rfl⟩, same⟩
    exact ⟨group, inGroups, member, inGroup, inline, same⟩
  · rintro ⟨group, inGroups, member, inGroup, inline, same⟩
    exact ⟨⟨member.name, member.id, []⟩, ⟨group, inGroups, member, inGroup, inline, rfl⟩, same⟩

end Page

/-- What a container lists and what lists members itself has a page of its own. -/
theorem Kind.hasOwnDocument_of_lists {container member : Kind} {group : MemberGroup}
    (grouped : group ∈ container.memberGroups) (lists : group.lists member)
    (lister : member.memberGroups ≠ []) : member.hasOwnDocument = true := by
  revert group
  cases container <;> cases member <;> first | exact absurd rfl lister | decide

namespace Manual

variable {catalog : Catalog} {options : Options} {built : Site}

/-- An entity has an anchor when it has a heading on the page of a placed entity. -/
theorem isSome_anchor?_iff_placed (made : site catalog options = .ok built) {id : EntityId} :
    (built.anchor? id).isSome ↔
      ∃ path entity, catalog.Placed options.extension path entity ∧
        (entity.id = id ∨ ∃ group ∈ entity.kind.memberGroups,
          ∃ member ∈ Page.listed catalog entity group,
            member.kind.hasOwnDocument = false ∧ member.id = id) := by
  rw [(site_eq_replay made).2, Site.isSome_anchor?_replay]
  constructor
  · rintro ⟨_, held, heading, listed, same⟩
    obtain ⟨path, entity, placed, rfl⟩ := mem_trace_iff.mp held
    exact ⟨path, entity, placed, Page.exists_heading_render_iff.mp ⟨heading, listed, same⟩⟩
  · rintro ⟨path, entity, placed, shown⟩
    obtain ⟨heading, listed, same⟩ := Page.exists_heading_render_iff.mpr shown
    exact ⟨_, mem_trace_iff.mpr ⟨path, entity, placed, rfl⟩, heading, listed, same⟩

theorem documented_of_placed {path : String} {entity : Entity}
    (placed : catalog.Placed options.extension path entity) :
    catalog.Documented entity.id := by
  induction placed with
  | entryPoint listed found _ =>
      obtain ⟨_, rfl⟩ := Registry.get?_eq_some_iff.mp found
      exact .entryPoint listed
  | nested placed inside ih =>
      obtain ⟨group, grouped, inGroup⟩ := List.mem_flatMap.mp inside
      obtain ⟨listed, found, lists⟩ := Page.mem_listed_iff.mp (List.mem_filter.mp inGroup).1
      exact .member ih placed.entity? listed found grouped lists

/-- A documented entity has an anchor, and it is placed when it lists members: those are shown
on its page or below. -/
theorem anchored_and_placed (made : site catalog options = .ok built) {id : EntityId}
    (documented : catalog.Documented id) :
    (built.anchor? id).isSome ∧ ∀ entity, catalog.entity? id = some entity →
      entity.kind.memberGroups ≠ [] →
        ∃ path, catalog.Placed options.extension path entity := by
  induction documented with
  | @entryPoint id listed =>
      obtain ⟨entity, path, found, derived⟩ := (site_eq_replay made).1 id listed
      have placed : catalog.Placed options.extension path entity :=
        .entryPoint listed found derived
      refine ⟨(isSome_anchor?_iff_placed made).mpr ⟨path, entity, placed, .inl ?_⟩, ?_⟩
      · exact (Registry.get?_eq_some_iff.mp found).2
      · intro other otherFound _
        obtain rfl : entity = other := Option.some.inj (found.symm.trans otherFound)
        exact ⟨path, placed⟩
  | @member container member group _ registered listed found grouped lists ih =>
      -- The container has a group, so it is placed, and the member is shown there or below.
      obtain ⟨path, placed⟩ := ih.2 container registered (List.ne_nil_of_mem grouped)
      have inGroup : member ∈ Page.listed catalog container group :=
        Page.mem_listed_iff.mpr ⟨listed, found, lists⟩
      cases own : member.kind.hasOwnDocument with
      | true =>
          have inside : member ∈ Page.nested catalog container :=
            List.mem_flatMap.mpr ⟨group, grouped, List.mem_filter.mpr ⟨inGroup, own⟩⟩
          refine ⟨(isSome_anchor?_iff_placed made).mpr
            ⟨_, member, placed.nested inside, .inl rfl⟩, ?_⟩
          intro other otherFound _
          obtain rfl : member = other := Option.some.inj (found.symm.trans otherFound)
          exact ⟨_, placed.nested inside⟩
      | false =>
          refine ⟨(isSome_anchor?_iff_placed made).mpr
            ⟨path, container, placed, .inr ⟨group, grouped, member, inGroup, own, rfl⟩⟩, ?_⟩
          intro other otherFound lister
          obtain rfl : member = other := Option.some.inj (found.symm.trans otherFound)
          rw [Kind.hasOwnDocument_of_lists grouped lists lister] at own
          cases own

/-- On the site of a manual exactly the documented entities have anchors. -/
theorem isSome_anchor?_iff_documented (made : site catalog options = .ok built)
    {id : EntityId} : (built.anchor? id).isSome ↔ catalog.Documented id := by
  constructor
  · intro anchored
    obtain ⟨path, entity, placed, shown⟩ := (isSome_anchor?_iff_placed made).mp anchored
    rcases shown with rfl | ⟨group, grouped, member, inGroup, _, rfl⟩
    · exact documented_of_placed placed
    · obtain ⟨listed, found, lists⟩ := Page.mem_listed_iff.mp inGroup
      exact .member (documented_of_placed placed) placed.entity? listed found grouped lists
  · exact fun documented => (anchored_and_placed made documented).1

/-- Every heading on a document of a manual has an anchor. -/
theorem isSome_anchor?_of_mem_documents (made : site catalog options = .ok built)
    {path : String} {page : Page} (written : (path, page) ∈ built.documents) :
    ∀ heading ∈ Heading.listings page.headings, (built.anchor? heading.id).isSome := by
  intro heading listed
  rw [documents_of_site made] at written
  rw [(site_eq_replay made).2, Site.isSome_anchor?_replay]
  exact ⟨_, Site.mem_of_mem_settled written, heading, listed, rfl⟩

/-- In a manual exactly the documented entities have anchors, and a document causes a warning
for an entity exactly when the page uses the entity and neither it nor any of its ancestors is
documented. -/
theorem reported_iff_undocumented {documents : List Document} {warnings : List Diagnostic}
    (generated : generate catalog options = .ok (documents, warnings)) :
    ∃ built, site catalog options = .ok built ∧
      (∀ id, (built.anchor? id).isSome ↔ catalog.Documented id) ∧
      warnings = built.documents.flatMap (fun entry =>
        (built.documentAt catalog (!options.skipContents) entry.1 entry.2).2) ∧
      ∀ path page, (path, page) ∈ built.documents →
        ∃ reported : List EntityId,
          (built.documentAt catalog (!options.skipContents) path page).2 =
            reported.map (fun id =>
              .warning id (catalog.entity? id) Site.undocumentedMessage) ∧
          ∀ id, id ∈ reported ↔ id ∈ page.used.ids ∧
            ∀ steps ancestor, catalog.ancestor? id steps = some ancestor →
              ¬ catalog.Documented ancestor := by
  obtain ⟨built, made, output⟩ := generate_eq_ok_iff.mp generated
  rw [Site.output_eq] at output
  refine ⟨built, made, fun id => isSome_anchor?_iff_documented made,
    (congrArg Prod.snd output).symm, ?_⟩
  intro path page written
  refine ⟨built.undocumented catalog (!options.skipContents) page, rfl, fun id => ?_⟩
  rw [Site.mem_undocumented_iff (isSome_anchor?_of_mem_documents made written),
    Site.resolve?_eq_none_iff]
  simp only [← isSome_anchor?_iff_documented made, Option.not_isSome_iff_eq_none]

/-- The class of the shapes uses a type that is not documented. -/
theorem reported_of_shapes :
    ∃ documents warnings, generate shapes .default = .ok (documents, warnings) ∧
      ∃ built, site shapes .default = .ok built ∧
        (∀ id, (built.anchor? id).isSome ↔ shapes.Documented id) ∧
        warnings = built.documents.flatMap fun entry =>
          (built.documentAt shapes true entry.1 entry.2).2 := by
  obtain ⟨documents, warnings, generated⟩ :=
    @exists_generated_of_isOk shapes .default (by decide +kernel)
  obtain ⟨built, made, anchored, reported, _⟩ := reported_iff_undocumented generated
  exact ⟨documents, warnings, generated, built, made, anchored, reported⟩

end Manual

end ApiManual
