import ApiManual.Proofs.Manual.Placements
import ApiManual.Proofs.Site.PathParts

/-!
# Paths that tell entities apart

Document paths keep little of the names they are made of: the stem of a source file, and the
names of members in lower case.  When this still tells entry points apart, and members apart
that share a container, then no two entities are placed at the same path.

The induction is over the directories in which members are placed.  That of an entry point is
one segment, and that of a member is the directory of its container and one segment more.
-/

namespace ApiManual

open DocumentPath (home isStep memberStem sourceStem)

/-- An extension that passes its check holds none of the characters by which paths are cut. -/
theorem Options.not_mem_extension {options : Options} (valid : options.fault? = none)
    {char : Char} (mark : char ∈ ['.', '/', '\\']) : char ∉ options.extension.toList := by
  intro held
  have found : (options.extension.toList.any fun char => char ∈ ['.', '/', '\\']) = true :=
    List.any_eq_true.mpr ⟨char, held, decide_eq_true mark⟩
  simp only [fault?, found, if_true] at valid
  split at valid <;> cases valid

namespace Catalog

/-- What paths keep of names leads somewhere and tells entities apart: entry points among
themselves, and the members of a container that have documents of their own. -/
structure NamesApart (catalog : Catalog) (extension : String) : Prop where
  entries_step : ∀ entity ∈ catalog.entities catalog.registry.entryPoints,
    isStep (Text.lowerChars (sourceStem entity.location.fileName)) = true
  entries_apart : ∀ left ∈ catalog.entities catalog.registry.entryPoints,
    ∀ right ∈ catalog.entities catalog.registry.entryPoints,
      Text.lowerChars (sourceStem left.location.fileName) =
        Text.lowerChars (sourceStem right.location.fileName) → left.id = right.id
  members_plain : ∀ container ∈ catalog.registry.entities,
    ∀ member ∈ Page.nested catalog container,
      '/' ∉ member.name.toList ∧ '\\' ∉ member.name.toList
  members_step : ∀ container ∈ catalog.registry.entities,
    ∀ member ∈ Page.nested catalog container, isStep (memberStem member.name extension) = true
  members_apart : ∀ container ∈ catalog.registry.entities,
    ∀ left ∈ Page.nested catalog container, ∀ right ∈ Page.nested catalog container,
      memberStem left.name extension = memberStem right.name extension → left.id = right.id

namespace NamesApart

variable {catalog : Catalog} {extension path : String} {entity container member : Entity}

section

variable (apart : catalog.NamesApart extension) (noSlash : '/' ∉ extension.toList)
  (noDot : '.' ∉ extension.toList)

include apart noSlash

theorem home_nested (homeStep : isStep (home path) = true)
    (placed : Placed catalog extension path container)
    (inside : member ∈ Page.nested catalog container) :
    home (DocumentPath.member path member.name extension) =
      home path ++ '/' :: memberStem member.name extension :=
  have registered := (Registry.get?_eq_some_iff.mp placed.entity?).1
  DocumentPath.home_member homeStep (apart.members_plain container registered member inside).1
    noSlash (apart.members_step container registered member inside)

include noDot

theorem home_entry {id : EntityId} (listed : id ∈ catalog.registry.entryPoints)
    (found : catalog.entity? id = some entity)
    (derived : DocumentPath.entry? entity.location.fileName extension = some path) :
    home path = Text.lowerChars (sourceStem entity.location.fileName) :=
  DocumentPath.home_entry derived noSlash noDot
    (apart.entries_step entity (List.mem_filterMap.mpr ⟨id, listed, found⟩))

/-- Every directory for members leads somewhere. -/
theorem isStep_home (placed : Placed catalog extension path entity) :
    isStep (home path) = true := by
  induction placed with
  | @entryPoint id path entity listed found derived =>
      rw [apart.home_entry noSlash noDot listed found derived]
      exact apart.entries_step entity (List.mem_filterMap.mpr ⟨id, listed, found⟩)
  | nested placed inside ih =>
      rw [apart.home_nested noSlash ih placed inside]
      exact DocumentPath.isStep_append_slash

/-- The directory for the members of an entity is its stem, when it is an entry point, or ends
with its stem below the directory of its container. -/
theorem home_cases (placed : Placed catalog extension path entity) :
    (entity ∈ catalog.entities catalog.registry.entryPoints ∧
        home path = Text.lowerChars (sourceStem entity.location.fileName)) ∨
      ∃ outer container, Placed catalog extension outer container ∧
        entity ∈ Page.nested catalog container ∧
          home path = home outer ++ '/' :: memberStem entity.name extension := by
  cases placed with
  | @entryPoint id _ _ listed found derived =>
      exact .inl ⟨List.mem_filterMap.mpr ⟨id, listed, found⟩,
        apart.home_entry noSlash noDot listed found derived⟩
  | nested outer inside =>
      exact .inr ⟨_, _, outer, inside,
        apart.home_nested noSlash (apart.isStep_home noSlash noDot outer) outer inside⟩

/-- Entities whose members share a directory are the same. -/
theorem id_eq_of_home_eq {left right : String} {leftEntity rightEntity : Entity}
    (leftPlaced : Placed catalog extension left leftEntity)
    (rightPlaced : Placed catalog extension right rightEntity)
    (same : home left = home right) : leftEntity.id = rightEntity.id := by
  induction leftPlaced generalizing right rightEntity with
  | @entryPoint id left leftEntity listed found derived =>
      rw [apart.home_entry noSlash noDot listed found derived] at same
      rcases apart.home_cases noSlash noDot rightPlaced with
        ⟨entry, homeEq⟩ | ⟨_, _, _, _, homeEq⟩
      · exact apart.entries_apart leftEntity (List.mem_filterMap.mpr ⟨id, listed, found⟩)
          rightEntity entry (same.trans homeEq)
      · exact absurd (same.trans homeEq) DocumentPath.lowerChars_sourceStem_ne
  | @nested left container leftEntity placed inside ih =>
      rw [apart.home_nested noSlash (apart.isStep_home noSlash noDot placed) placed
        inside] at same
      rcases apart.home_cases noSlash noDot rightPlaced with
        ⟨_, homeEq⟩ | ⟨outer, otherContainer, otherPlaced, otherInside, homeEq⟩
      · exact absurd (same.trans homeEq).symm DocumentPath.lowerChars_sourceStem_ne
      · -- The last segments are cut off: the containers share a directory, too.
        obtain ⟨outerEq, stemEq⟩ := DocumentPath.append_mark_inj
          DocumentPath.slash_not_mem_stemOf DocumentPath.slash_not_mem_stemOf (same.trans homeEq)
        have containerEq : container = otherContainer :=
          Option.some.inj (placed.entity?.symm.trans
            ((ih otherPlaced outerEq) ▸ otherPlaced.entity?))
        subst containerEq
        exact apart.members_apart container (Registry.get?_eq_some_iff.mp placed.entity?).1
          leftEntity inside rightEntity otherInside stemEq

/-- No two entities are placed at the same path. -/
theorem eq_of_placed {left right : Entity} (leftPlaced : Placed catalog extension path left)
    (rightPlaced : Placed catalog extension path right) : left = right := by
  have sameId := apart.id_eq_of_home_eq noSlash noDot leftPlaced rightPlaced rfl
  exact Option.some.inj (leftPlaced.entity?.symm.trans (sameId ▸ rightPlaced.entity?))

/-- A path is written as it is: it holds no backslash. -/
theorem backslash_not_mem (noBackslash : '\\' ∉ extension.toList)
    (placed : Placed catalog extension path entity) : '\\' ∉ path.toList := by
  induction placed with
  | entryPoint _ _ derived =>
      intro held
      rw [(DocumentPath.toList_entry derived).2, List.mem_append, List.mem_cons] at held
      rcases held with stem | dot | inExtension
      · exact DocumentPath.backslash_not_mem_standardize (DocumentPath.stemOf_subset stem)
      · exact absurd dot (by decide)
      · exact noBackslash inExtension
  | @nested path container member placed inside ih =>
      have registered := (Registry.get?_eq_some_iff.mp placed.entity?).1
      have fileStep := DocumentPath.isStep_of_isStep_stemOf
        (apart.members_step container registered member inside)
      intro held
      rw [DocumentPath.toList_member (apart.isStep_home noSlash noDot placed) fileStep,
        List.mem_append, List.mem_cons] at held
      rcases held with inHome | slash | inFile
      · exact ih (DocumentPath.mem_of_mem_home inHome (by decide) (by decide))
      · exact absurd slash (by decide)
      · have source := Text.mem_of_mem_lowerChars inFile (by decide)
        rw [DocumentPath.toList_withExtension, List.mem_append, List.mem_cons] at source
        rcases source with inName | dot | inExtension
        · exact (apart.members_plain container registered member inside).2 inName
        · exact absurd dot (by decide)
        · exact noBackslash inExtension

end

end NamesApart

end Catalog

end ApiManual
