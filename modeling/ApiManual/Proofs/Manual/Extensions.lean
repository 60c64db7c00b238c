import ApiManual.Proofs.Manual.Locations

/-!
# Extensions of documents

The location of a document ends with a dot and the extension that a run is told.  That of an entry
point takes the extension as it is; that of a nested member is made lower case with the extension
in it.  So an extension with capital letters is kept by the documents of entry points only.
-/

namespace ApiManual

namespace DocumentPath

/-- A location ends with a dot and an extension. -/
def HasExtension (extension location : String) : Prop :=
  ('.' :: extension.toList) <:+ location.toList

instance (extension location : String) : Decidable (HasExtension extension location) :=
  inferInstanceAs (Decidable (_ <:+ _))

/-- Of the endings without a dot only one follows the last dot. -/
theorem isSuffix_append_iff {extension front ending : List Char} (clean : '.' ∉ extension)
    (endingClean : '.' ∉ ending) :
    ('.' :: extension) <:+ (front ++ '.' :: ending) ↔ ending = extension := by
  constructor
  · intro ends
    obtain ⟨stem, whole⟩ := ends
    exact (append_mark_inj clean endingClean whole).2.symm
  · intro same
    rw [same]
    exact List.suffix_append front _

section Members

variable {name extension container : String}

/-- The location of a member ends with a dot and the extension in lower case. -/
theorem IsExtension.exists_location_member (valid : IsExtension extension)
    (name container : String) :
    ∃ front context, (standardize (member container name extension)).toList =
      front ++ '.' :: Text.lowerAfter context extension.toList := by
  obtain ⟨stem, context, fileEq, _⟩ := exists_fileOf_eq name extension
  have ending := valid.ending_of_lowers (Text.lowers_lowerAfter context extension.toList)
  have noBackslash : '\\' ∉ '.' :: Text.lowerAfter context extension.toList := by
    simpa using ending.2 '\\' (by decide)
  rw [toList_standardize, valid.toList_member, fileEq]
  split
  · rw [slashed_append, slashed_of_not_mem noBackslash]
    exact ⟨_, context, rfl⟩
  · rw [← List.cons_append, ← List.append_assoc, slashed_append, slashed_of_not_mem noBackslash]
    exact ⟨_, context, rfl⟩

/-- The location of a member has the extension exactly when that is in lower case. -/
theorem IsExtension.hasExtension_member_iff (valid : IsExtension extension) :
    HasExtension extension (standardize (member container name extension)) ↔
      Text.toLower extension = extension := by
  obtain ⟨front, context, location⟩ := valid.exists_location_member name container
  have ending := valid.ending_of_lowers (Text.lowers_lowerAfter context extension.toList)
  rw [HasExtension, location, isSuffix_append_iff (valid.unmarked '.' (by decide))
    (ending.2 '.' (by decide)), Text.lowerAfter_eq_self_iff, Text.toLower_eq_self_iff]

/-- The location of an entry document has the extension. -/
theorem IsExtension.hasExtension_entry (valid : IsExtension extension) {fileName path : String}
    (derived : entry? fileName extension = some path) :
    HasExtension extension (standardize path) := by
  have noBackslash : '\\' ∉ '.' :: extension.toList := by
    simpa using valid.unmarked '\\' (by decide)
  rw [HasExtension, toList_standardize, (toList_entry derived).2, slashed_append,
    slashed_of_not_mem noBackslash]
  exact List.suffix_append _ _

end Members

end DocumentPath

namespace Manual

open DocumentPath (HasExtension IsExtension standardize)

variable {catalog : Catalog} {options : Options}

/-- A location is that of a nested member and ends with another, lower-case form of the
extension. -/
def LosesExtension (catalog : Catalog) (extension location : String) : Prop :=
  ∃ path container member, catalog.Placed extension path container ∧
    member ∈ Page.nested catalog container ∧
    location = standardize (DocumentPath.member path member.name extension) ∧
    ∃ form, Text.Lowers extension.toList form ∧ form ≠ extension.toList ∧
      ('.' :: form) <:+ location.toList

/-- Every document has the extension or a lower-case form of it. -/
theorem hasExtension_or_loses {extension path : String} {entity : Entity}
    (valid : IsExtension extension) (placed : catalog.Placed extension path entity) :
    HasExtension extension (standardize path) ∨
      LosesExtension catalog extension (standardize path) := by
  cases placed with
  | entryPoint listed found derived => exact .inl (valid.hasExtension_entry derived)
  | @nested path container _ outer inside =>
      obtain ⟨front, context, location⟩ := valid.exists_location_member entity.name path
      by_cases kept : Text.lowerAfter context extension.toList = extension.toList
      · left
        rw [HasExtension, location, kept]
        exact List.suffix_append _ _
      · refine .inr ⟨path, container, entity, outer, inside, rfl, _,
          Text.lowers_lowerAfter context _, kept, ?_⟩
        rw [location]
        exact List.suffix_append _ _

/-- The documents of a manual all have the extension exactly when it is in lower case or no entity
with a document has nested members.  A document without it is that of a nested member, and its
location ends with another, lower-case form of the extension instead. -/
theorem locations_have_extension_iff {documents : List Document} {warnings : List Diagnostic}
    (valid : options.fault? = none)
    (generated : generate catalog options = .ok (documents, warnings)) :
    ((∀ document ∈ documents, HasExtension options.extension document.location) ↔
      Text.toLower options.extension = options.extension ∨
        ∀ path container, catalog.Placed options.extension path container →
          Page.nested catalog container = []) ∧
    ∀ document ∈ documents, HasExtension options.extension document.location ∨
      LosesExtension catalog options.extension document.location := by
  have extension := Options.isExtension valid
  rw [forall_location_iff generated, forall_location_iff generated fun location =>
    HasExtension options.extension location ∨ LosesExtension catalog options.extension location]
  constructor
  · constructor
    · intro every
      by_cases lower : Text.toLower options.extension = options.extension
      · exact .inl lower
      · right
        intro path container placed
        apply List.eq_nil_iff_forall_not_mem.mpr
        intro member inside
        exact lower (extension.hasExtension_member_iff.mp (every _ _ (placed.nested inside)))
    · intro kept path entity placed
      cases placed with
      | entryPoint listed found derived => exact extension.hasExtension_entry derived
      | nested outer inside =>
          cases kept with
          | inl lower => exact extension.hasExtension_member_iff.mpr lower
          | inr flat =>
              rw [flat _ _ outer] at inside
              cases inside
  · intro path entity placed
    exact hasExtension_or_loses extension placed

/-- The documents of the shapes have the extension that is used when none is given. -/
theorem locations_of_shapes_have_extension :
    Options.default.fault? = none ∧
    ∃ documents warnings, generate shapes .default = .ok (documents, warnings) ∧
      ∀ document ∈ documents, HasExtension "md" document.location := by
  obtain ⟨documents, warnings, generated⟩ :=
    @exists_generated_of_isOk shapes .default (by decide +kernel)
  have valid : Options.default.fault? = none := by decide
  have lower : Text.toLower Options.default.extension = Options.default.extension := by decide
  exact ⟨valid, documents, warnings, generated,
    (locations_have_extension_iff valid generated).1.mpr (.inl lower)⟩

/-- Options with an extension in capital letters. -/
def capitals : Options := { Options.default with extension := "MD" }

/-- The document of the class does not have an extension in capital letters. -/
theorem locations_of_shapes_lose_capitals :
    capitals.fault? = none ∧
    ∃ documents warnings, generate shapes capitals = .ok (documents, warnings) ∧
      documents.map (·.location) = ["geometry.MD", "geometry/shape.md"] ∧
      ¬ ∀ document ∈ documents, HasExtension capitals.extension document.location := by
  obtain ⟨documents, warnings, generated⟩ :=
    @exists_generated_of_isOk shapes capitals (by decide +kernel)
  have locations : (generate shapes capitals).toOption.map (·.1.map (·.location)) =
      some ["geometry.MD", "geometry/shape.md"] := by decide +kernel
  rw [generated] at locations
  have locationsEq : documents.map (·.location) = ["geometry.MD", "geometry/shape.md"] :=
    Option.some.inj locations
  refine ⟨by decide, documents, warnings, generated, locationsEq, fun every => ?_⟩
  have lost : "geometry/shape.md" ∈ documents.map (·.location) := by
    rw [locationsEq]
    decide
  obtain ⟨document, written, location⟩ := List.mem_map.mp lost
  have kept := every document written
  rw [location] at kept
  exact absurd kept (by decide)

end Manual

end ApiManual
