import ApiManual.Proofs.Manual.Anchors

/-!
# Sections of a page

The page of an entity is its own text and a section for each group of its members.  A section
shows the members that have no pages of their own, one after the other, and then lists the others.
The headings of the page follow these sections.
-/

namespace ApiManual.Page

open Markdown (Block)

/-- The members of a group on the page of their container. -/
structure Section where
  group : MemberGroup
  members : List Entity

/-- The lines of a member that is shown, below its header. -/
def memberLines (catalog : Catalog) (language : String) (member : Entity) : List String :=
  Markdown.toLines (body catalog language member member.name memberLevel).1.tail

namespace Section

/-- The section of a group of an entity. -/
def ofGroup (catalog : Catalog) (entity : Entity) (group : MemberGroup) : Section :=
  ⟨group, Page.listed catalog entity group⟩

/-- The members that have no pages of their own. -/
def shown (part : Section) : List Entity := part.members.filter (!·.kind.hasOwnDocument)

/-- The members that have pages of their own. -/
def listed (part : Section) : List Entity := part.members.filter (·.kind.hasOwnDocument)

/-- The headings of the members that are shown. -/
def headings (part : Section) : List Heading :=
  part.shown.map fun member => ⟨member.name, member.id, []⟩

/-- The lines of a section: its header, what is shown under headers of its own, and a list. -/
def lines (catalog : Catalog) (language : String) (part : Section) : List String :=
  ("## " ++ part.group.label) :: "" ::
    part.shown.flatMap (fun member =>
      ("### " ++ member.name) :: memberLines catalog language member) ++
    if part.listed.isEmpty then [] else Markdown.listLines 0 (part.listed.map entry) ++ [""]

end Section

/-- The sections of an entity, one for each of its groups that has members. -/
def sections (catalog : Catalog) (entity : Entity) : List Section :=
  (entity.kind.memberGroups.map (Section.ofGroup catalog entity)).filter (!·.members.isEmpty)

/-- The lines of an entity before its sections. -/
def ownLines (catalog : Catalog) (language : String) (entity : Entity) : List String :=
  Markdown.toLines (body catalog language entity entity.name titleLevel).1

variable {catalog : Catalog} {language : String} {entity member : Entity}

theorem flatMap_filter {α β : Type} (keep : α → Bool) (f : α → List β) (values : List α) :
    (values.filter keep).flatMap f =
      values.flatMap fun value => if keep value then f value else [] := by
  induction values with
  | nil => rfl
  | cons value rest ih =>
      rw [List.flatMap_cons, ← ih]
      cases kept : keep value with
      | true => rw [List.filter_cons_of_pos kept, List.flatMap_cons, if_pos rfl]
      | false => rw [List.filter_cons_of_neg (by simp [kept]), if_neg (by simp), List.nil_append]

theorem map_filter_eq_flatMap {α β : Type} (keep : α → Bool) (f : α → β) (values : List α) :
    (values.filter keep).map f =
      values.flatMap fun value => if keep value then [f value] else [] := by
  rw [List.map_eq_flatMap, flatMap_filter]

theorem content_part (member : Entity) :
    (part catalog language member).content =
      if member.kind.hasOwnDocument then []
      else ("### " ++ member.name) :: memberLines catalog language member := by
  rw [part, ← headerLine_memberLevel]
  split <;> rfl

theorem entries_part (member : Entity) :
    (part catalog language member).entries =
      if member.kind.hasOwnDocument then [entry member] else [] := by
  rw [part]
  split <;> rfl

/-! ## The parts of a section -/

section

variable (group : MemberGroup) (members : List Entity)

theorem flatMap_headings_part :
    (members.map (part catalog language)).flatMap (·.headings) =
      (Section.mk group members).headings := by
  rw [Section.headings, Section.shown, map_filter_eq_flatMap, List.flatMap_map]
  apply List.flatMap_congr
  intro member _
  rw [headings_part]
  cases member.kind.hasOwnDocument <;> rfl

theorem flatMap_content_part :
    (members.map (part catalog language)).flatMap (·.content) =
      (Section.mk group members).shown.flatMap fun member =>
        ("### " ++ member.name) :: memberLines catalog language member := by
  rw [Section.shown, flatMap_filter, List.flatMap_map]
  apply List.flatMap_congr
  intro member _
  rw [content_part]
  cases member.kind.hasOwnDocument <;> rfl

theorem flatMap_entries_part :
    (members.map (part catalog language)).flatMap (·.entries) =
      (Section.mk group members).listed.map entry := by
  rw [Section.listed, map_filter_eq_flatMap, List.flatMap_map]
  apply List.flatMap_congr
  intro member _
  exact entries_part member

theorem headerLine_groupLevel (title : String) :
    Markdown.headerLine groupLevel title = "## " ++ title := by
  have marks : String.ofList (List.replicate (min (max groupLevel 1) 6) '#') ++ " " = "## " := by
    decide
  rw [Markdown.headerLine, marks]

/-- The section of a group is written when the group has members. -/
theorem toLines_groupBlocks :
    Markdown.toLines (groupBlocks group (members.map (part catalog language))) =
      if !members.isEmpty then (Section.mk group members).lines catalog language else [] := by
  have header : Markdown.headerLine groupLevel group.label = "## " ++ group.label :=
    headerLine_groupLevel group.label
  cases nobody : members.isEmpty with
  | true =>
      rw [List.isEmpty_iff.mp nobody]
      rfl
  | false =>
      rw [groupBlocks, List.isEmpty_map, nobody, flatMap_content_part group,
        flatMap_entries_part group, Section.lines, ← header]
      simp only [Bool.false_eq_true, if_false, Bool.not_false, if_true, List.isEmpty_map]
      split <;> simp [Markdown.toLines, Block.toLines]

end

/-- A section without members has no headings. -/
theorem headings_of_members (part : Section) :
    (if !part.members.isEmpty then part.headings else []) = part.headings := by
  obtain ⟨group, members⟩ := part
  cases members <;> rfl

/-! ## The page of an entity -/

/-- The content of a page is the text of its entity and the sections of its members. -/
theorem content_render (catalog : Catalog) (language : String) (entity : Entity) :
    (render catalog language entity (.of entity)).content =
      ownLines catalog language entity ++
        (sections catalog entity).flatMap (Section.lines catalog language) := by
  rw [sections, flatMap_filter, List.flatMap_map, Kind.memberGroups, render]
  cases entity.kind.memberGroups? with
  | none => exact (List.append_nil _).symm
  | some groups =>
      dsimp only
      rw [Markdown.toLines, List.flatMap_append, List.flatMap_assoc, List.flatMap_map]
      congr 1
      apply List.flatMap_congr
      intro group _
      exact toLines_groupBlocks group (listed catalog entity group)

/-- The headings below that of an entity are those of its sections. Only a container takes the
identifier under which it is rendered into its heading. -/
theorem headings_render_under (catalog : Catalog) (language : String) (entity : Entity)
    (identity : Identity) :
    (render catalog language entity identity).headings =
      [⟨identity.title, if entity.kind.memberGroups?.isSome then identity.id else entity.id,
        (sections catalog entity).flatMap Section.headings⟩] := by
  rw [sections, flatMap_filter, List.flatMap_map, Kind.memberGroups, render]
  cases entity.kind.memberGroups? with
  | none => rfl
  | some groups =>
      dsimp only
      rw [List.flatMap_map, List.flatMap_assoc]
      congr 2
      apply List.flatMap_congr
      intro group _
      rw [parts, flatMap_headings_part group]
      exact (headings_of_members (Section.ofGroup catalog entity group)).symm

theorem headings_render_eq (catalog : Catalog) (language : String) (entity : Entity) :
    (render catalog language entity (.of entity)).headings =
      [⟨entity.name, entity.id, (sections catalog entity).flatMap Section.headings⟩] := by
  rw [headings_render_under, Identity.of, ite_self]

end ApiManual.Page

namespace ApiManual.Catalog

/-- Whether a group lists the entity under an identifier. -/
def listedIn (catalog : Catalog) (group : MemberGroup) (id : EntityId) : Bool :=
  (catalog.kind? id).any group.lists

theorem listedIn_iff {catalog : Catalog} {group : MemberGroup} {id : EntityId} :
    catalog.listedIn group id ↔ ∃ kind ∈ group.kinds, catalog.kind? id = some kind := by
  simp only [listedIn, Option.any_eq_true, MemberGroup.lists, decide_eq_true_eq]
  exact ⟨fun ⟨kind, found, held⟩ => ⟨kind, held, found⟩, fun ⟨kind, held, found⟩ =>
    ⟨kind, found, held⟩⟩

/-- What is gathered group by group is told apart again by looking the entities up, since no kind
is in two groups. -/
theorem filter_flatMap_groups {catalog : Catalog} {β : Type} {groups : List MemberGroup}
    {gather : MemberGroup → List β} (id : β → EntityId)
    (gathered : ∀ group, ∀ value ∈ gather group, catalog.listedIn group (id value))
    (apart : groups.Pairwise fun left right => ∀ kind ∈ left.kinds, kind ∉ right.kinds) :
    ∀ group ∈ groups,
      (groups.flatMap gather).filter (fun value => catalog.listedIn group (id value)) =
        gather group := by
  have own : ∀ group, (gather group).filter (fun value => catalog.listedIn group (id value)) =
      gather group :=
    fun group => List.filter_eq_self.mpr (gathered group)
  have foreign : ∀ left right : MemberGroup, (∀ kind ∈ left.kinds, kind ∉ right.kinds) →
      (gather left).filter (fun value => catalog.listedIn right (id value)) = [] := by
    intro left right disjoint
    refine List.filter_eq_nil_iff.mpr fun value inLeft inRight => ?_
    obtain ⟨kind, held, found⟩ := listedIn_iff.mp (gathered left value inLeft)
    obtain ⟨other, otherHeld, otherFound⟩ := listedIn_iff.mp inRight
    cases found.symm.trans otherFound
    exact disjoint kind held otherHeld
  induction apart with
  | nil => simp
  | @cons first rest disjoint _ ih =>
      intro group member
      rw [List.flatMap_cons, List.filter_append]
      rcases List.mem_cons.mp member with rfl | later
      · have others : (rest.flatMap gather).filter
            (fun value => catalog.listedIn group (id value)) = [] := by
          rw [List.filter_flatMap, List.flatMap_eq_nil_iff]
          intro other inRest
          exact foreign other group fun kind held held' => disjoint other inRest kind held' held
        rw [own, others, List.append_nil]
      · rw [foreign first group (disjoint group later), ih group later, List.nil_append]

end ApiManual.Catalog
