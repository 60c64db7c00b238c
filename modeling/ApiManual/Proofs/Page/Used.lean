import ApiManual.Page.Prose
import ApiManual.Proofs.Manual.Documented
import ApiManual.Proofs.TypeExpr.Targets

/-!
# What a page uses

The text of an entity uses the entity itself before anything else, and prose only adds to what is
used.  The page of a container uses all that the texts on it use, and the members that it lists
with pages of their own.  So a page uses every entity that it has a heading for.
-/

namespace ApiManual

open Markdown (Block)

namespace Prose

/-- An action adds to what was used before it. -/
def Adds {α : Type} (action : Linked α) : Prop :=
  ∀ used, ∃ ids, (action used).2 = used.insertAll ids

namespace Adds

variable {α β : Type} {action : Linked α} {next : α → Linked β} {used : References}
  {id : EntityId}

theorem keeps (adds : Adds action) (known : id ∈ used.ids) : id ∈ (action used).2.ids := by
  obtain ⟨ids, recorded⟩ := adds used
  rw [recorded]
  exact References.mem_ids_insertAll.mpr (.inl known)

theorem pure (value : α) : Adds (Pure.pure value) := fun _ => ⟨[], rfl⟩

theorem bind (first : Adds action) (second : ∀ value, Adds (next value)) :
    Adds (action >>= next) := by
  intro used
  obtain ⟨ids, recorded⟩ := first used
  obtain ⟨later, after⟩ := second (action used).1 (action used).2
  refine ⟨ids ++ later, ?_⟩
  rw [References.insertAll_append, ← recorded]
  exact after

theorem andReturn (first : Adds action) (f : α → β) :
    Adds (action >>= fun value => Pure.pure (f value)) :=
  first.bind fun value => pure (f value)

theorem mapM {make : α → Linked β} (each : ∀ value, Adds (make value)) (values : List α) :
    Adds (values.mapM make) := by
  induction values with
  | nil => exact pure []
  | cons value rest ih =>
      rw [List.mapM_cons]
      exact (each value).bind fun first => ih.andReturn (first :: ·)

end Adds

theorem adds_linkedType (type : TypeExpr) : Adds (linkedType type) :=
  fun used => ⟨type.targets, type.recorded_linked used⟩

theorem adds_linkedList (types : List TypeExpr) : Adds (linkedList types) := by
  have each : Adds fun used => TypeExpr.linkedAll types used :=
    fun used => ⟨TypeExpr.targetsAll types, TypeExpr.recorded_linkedAll types used⟩
  exact each.andReturn (Text.joined ", ")

theorem adds_linkedOptional (introduction : String) (type : Option TypeExpr) :
    Adds (linkedOptional introduction type) := by
  cases type with
  | none => exact .pure ""
  | some type => exact (adds_linkedType type).andReturn (introduction ++ ·)

theorem adds_heritageList (label : String) (types : List TypeExpr) :
    Adds (heritageList label types) := by
  simp only [heritageList]
  split
  · exact .pure []
  · exact (adds_linkedList types).andReturn fun text => paragraph (label ++ text)

theorem adds_heritage (declaration : Declaration) : Adds (heritage declaration) := by
  cases declaration with
  | classType typeParameters base interfaces members isAbstract =>
      exact (adds_heritageList _ base.toList).bind fun extended =>
        (adds_heritageList _ interfaces).andReturn (extended ++ ·)
  | interfaceType typeParameters bases members => exact adds_heritageList _ bases
  | _ => exact .pure []

theorem adds_typeParameterItem (parameter : TypeParameter) :
    Adds (typeParameterItem parameter) :=
  (adds_linkedOptional " extends " parameter.constraint).bind fun _ =>
    (adds_linkedOptional " = " parameter.default).andReturn _

theorem adds_parameterItem (doc : DocComment) (parameter : Parameter) :
    Adds (parameterItem doc parameter) := by
  simp only [parameterItem]
  cases parameter.type with
  | none => exact .pure _
  | some type => exact (adds_linkedType type).andReturn _

theorem adds_returns (doc : DocComment) (type : Option TypeExpr) : Adds (returns doc type) := by
  cases type with
  | none => exact .pure []
  | some type => exact (adds_linkedType type).andReturn _

theorem adds_value (type : Option TypeExpr) : Adds (value type) := by
  cases type with
  | none => exact .pure []
  | some type => exact (adds_linkedType type).andReturn _

/-- The prose after a signature adds to what is used. -/
theorem adds_details (catalog : Catalog) (entity : Entity) (doc : DocComment) :
    Adds (details catalog entity doc) := by
  simp only [details]
  split
  · exact .pure []
  · refine (adds_heritage entity.declaration).bind fun heritage => ?_
    refine (Adds.mapM adds_typeParameterItem _).bind fun typeParameters => ?_
    refine (Adds.mapM (adds_parameterItem doc) _).bind fun parameters => ?_
    refine (adds_returns doc _).bind fun returns => ?_
    exact (adds_value _).andReturn _

end Prose

namespace Page

variable {catalog : Catalog} {language : String} {entity member : Entity} {group : MemberGroup}
  {identity : Identity}

theorem mem_used_body (language title : String) (level : Nat) :
    entity.id ∈ (body catalog language entity title level).2.ids := by
  have own : entity.id ∈ (References.singleton entity.id).ids :=
    References.mem_ids_insert.mpr (.inr rfl)
  exact (Prose.adds_details catalog entity entity.docComment).keeps own

/-- A member adds itself to what the page of its container uses. -/
theorem mem_references_part : member.id ∈ (part catalog language member).references := by
  rw [part]
  split
  · exact List.mem_singleton_self _
  · exact mem_used_body language member.name memberLevel

theorem mem_used_render : entity.id ∈ (render catalog language entity identity).used.ids := by
  rw [render]
  split
  · exact mem_used_body language identity.title titleLevel
  · exact References.mem_ids_insertAll.mpr (.inl (mem_used_body language identity.title titleLevel))

/-- The page of a container uses the members that it lists. -/
theorem mem_used_render_of_listed (grouped : group ∈ entity.kind.memberGroups)
    (inGroup : member ∈ listed catalog entity group) :
    member.id ∈ (render catalog language entity identity).used.ids := by
  rw [Kind.memberGroups] at grouped
  rw [render]
  split
  · next noGroups =>
      rw [noGroups] at grouped
      cases grouped
  · next groups someGroups =>
      rw [someGroups] at grouped
      refine References.mem_ids_insertAll.mpr (.inr ?_)
      have inParts : part catalog language member ∈ parts catalog language entity group :=
        List.mem_map_of_mem inGroup
      exact List.mem_flatMap.mpr ⟨_, List.mem_flatMap.mpr ⟨_, List.mem_map_of_mem grouped, inParts⟩,
        mem_references_part⟩

/-- A page uses every entity that it has a heading for. -/
theorem mem_used_of_mem_listings {heading : Heading}
    (shown : heading ∈
      Heading.listings (render catalog language entity (.of entity)).headings) :
    heading.id ∈ (render catalog language entity (.of entity)).used.ids := by
  cases exists_heading_render_iff.mp ⟨heading, shown, rfl⟩ with
  | inl own =>
      rw [← own]
      exact mem_used_render
  | inr below =>
      obtain ⟨group, grouped, member, inGroup, _, same⟩ := below
      rw [← same]
      exact mem_used_render_of_listed grouped inGroup

end Page

end ApiManual
