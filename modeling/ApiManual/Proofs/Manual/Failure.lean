import ApiManual.Proofs.Manual.Placements
import ApiManual.Proofs.Site.Reporting

/-!
# When generation fails

Making a manual fails for one reason: the source file of an entry point has a name without a
last part.  The first such entry point ends the run before anything is reported.  Nothing that
is rendered can be refused otherwise, since all entry points and all members that a page hands
on are registered.
-/

namespace ApiManual

namespace DocumentPath

/-- A file name has no last part: it is empty or ends with a separator. -/
def HasNoBase (fileName : String) : Prop :=
  fileName = "" ∨ fileName.toList.getLast? = some '/' ∨ fileName.toList.getLast? = some '\\'

instance (fileName : String) : Decidable (HasNoBase fileName) :=
  inferInstanceAs (Decidable (_ ∨ _ ∨ _))

theorem baseOf_eq_nil_iff {path : List Char} :
    baseOf path = [] ↔ path = [] ∨ path.getLast? = some '/' := by
  unfold baseOf
  cases found : Text.splitLast? '/' path with
  | none =>
      have clean : path.getLast? ≠ some '/' := fun last =>
        Text.splitLast?_eq_none_iff.mp found (List.mem_of_getLast? last)
      simp [clean]
  | some parts =>
      obtain ⟨directory, base⟩ := parts
      obtain ⟨rfl, clean⟩ := Text.splitLast?_eq_some found
      cases base with
      | nil => simp
      | cons first rest =>
          have last : (first :: rest).getLast? ≠ some '/' := fun last =>
            clean (List.mem_of_getLast? last)
          simpa using last

/-- The dot at the start of a name is no end of a stem, so only a path without a last part has
no stem. -/
theorem stemOf_eq_nil_iff {path : List Char} : stemOf path = [] ↔ baseOf path = [] := by
  unfold stemOf
  split
  · exact Iff.rfl
  · exact Iff.rfl
  · next stem extension notHidden found =>
      have nonempty : stem ≠ [] := fun empty => notHidden empty
      rw [(Text.splitLast?_eq_some found).1]
      simp [nonempty]

theorem entry?_eq_none_iff {fileName extension : String} :
    entry? fileName extension = none ↔ HasNoBase fileName := by
  have last : (standardize fileName).toList.getLast? = some '/' ↔
      fileName.toList.getLast? = some '/' ∨ fileName.toList.getLast? = some '\\' := by
    rw [standardize, String.toList_ofList, List.getLast?_map]
    cases fileName.toList.getLast? with
    | none => simp
    | some char =>
        simp only [Option.map_some, Option.some.injEq]
        split
        · next backslash => simp [backslash]
        · next differs => simp [differs]
  have empty : (standardize fileName).toList = [] ↔ fileName = "" := by
    simp [standardize]
  have noStem : entry? fileName extension = none ↔ stemOf (standardize fileName).toList = [] := by
    unfold entry?
    dsimp only
    split
    · next none => simp [none]
    · next some => simp [some]
  rw [noStem, stemOf_eq_nil_iff, baseOf_eq_nil_iff, empty, last, HasNoBase]

end DocumentPath

open DocumentPath (HasNoBase)

namespace Manual

variable {catalog : Catalog} {options : Options} {id : EntityId} {entity : Entity}

/-- No page that is rendered for an entity is refused, nor is any page below it. -/
theorem add_render (before : Site) (path : String) (entity : Entity) :
    (before.add catalog options.extension path
      (Page.render catalog options.language entity (.of entity))).2 = none := by
  rw [Site.add_eq_replay, Site.visits_render, Site.refused?, List.find?_map]
  have placed : (catalog.placementsFrom options.extension path entity).find?
      ((fun visit : Option String × Page => visit.1.isNone) ∘ fun placement =>
        (some placement.1, Page.render catalog options.language placement.2
          (.of placement.2))) = none := by
    refine List.find?_eq_none.mpr fun placement _ => ?_
    simp
  rw [placed]
  rfl

/-- Why an entry point cannot be placed. -/
def refusal? (catalog : Catalog) (id : EntityId) : Option Error := do
  let entity ← catalog.entity? id
  if HasNoBase entity.location.fileName then
    some (.invalidDocumentPath id entity.location.fileName)
  else none

theorem refusal?_eq_some_iff {error : Error} :
    refusal? catalog id = some error ↔
      ∃ entity, catalog.entity? id = some entity ∧ HasNoBase entity.location.fileName ∧
        error = .invalidDocumentPath id entity.location.fileName := by
  simp only [refusal?, Option.bind_eq_bind, Option.bind_eq_some_iff,
    Option.ite_none_right_eq_some, Option.some.injEq, @eq_comm _ error]

/-- Placing a registered entry point depends on the name of its source file alone. -/
theorem addEntryPoint_of_entity? (before : Site) (found : catalog.entity? id = some entity) :
    match refusal? catalog id with
    | some error => addEntryPoint catalog options before id = .error error
    | none => ∃ next, addEntryPoint catalog options before id = .ok next := by
  obtain ⟨_, rfl⟩ := Registry.get?_eq_some_iff.mp found
  have sameId : (Identity.of entity).id = entity.id := rfl
  simp only [refusal?, addEntryPoint, Site.addEntry, Page.id_render, sameId, found,
    Option.bind_eq_bind, Option.bind_some]
  cases derived : DocumentPath.entry? entity.location.fileName options.extension with
  | none =>
      rw [if_pos (DocumentPath.entry?_eq_none_iff.mp derived)]
  | some path =>
      have base : ¬ HasNoBase entity.location.fileName := fun none => by
        rw [DocumentPath.entry?_eq_none_iff.mpr none] at derived
        cases derived
      have accepted := @add_render catalog options before path entity
      rw [if_neg base]
      dsimp only
      split
      · next error failed =>
          rw [failed] at accepted
          cases accepted
      · next next _ => exact ⟨next, rfl⟩

/-- Entry points are placed until the first one that is refused. -/
theorem foldlM_addEntryPoint_eq_error_iff {ids : List EntityId} {error : Error}
    (registered : ∀ id ∈ ids, ∃ entity, catalog.entity? id = some entity) (before : Site) :
    ids.foldlM (addEntryPoint catalog options) before = .error error ↔
      ids.findSome? (refusal? catalog) = some error := by
  induction ids generalizing before with
  | nil => simp [pure, Except.pure]
  | cons id rest ih =>
      obtain ⟨entity, found⟩ := registered id List.mem_cons_self
      have step := @addEntryPoint_of_entity? catalog options id entity before found
      rw [List.foldlM_cons, List.findSome?_cons]
      cases refused : refusal? catalog id with
      | some refusal =>
          rw [refused] at step
          dsimp only at step
          rw [step]
          simp [bind, Except.bind]
      | none =>
          rw [refused] at step
          obtain ⟨next, placed⟩ := step
          rw [placed]
          exact ih (fun other later => registered other (List.mem_cons_of_mem _ later)) next

theorem entity?_of_mem_entryPoints (listed : id ∈ catalog.registry.entryPoints) :
    ∃ entity, catalog.entity? id = some entity := by
  obtain ⟨entity, member, rfl⟩ :=
    List.mem_map.mp (catalog.registry.entryPoints_registered id listed)
  exact ⟨entity, Registry.get?_eq_some_iff.mpr ⟨member, rfl⟩⟩

theorem generate_eq_error_iff_findSome? {error : Error} :
    generate catalog options = .error error ↔
      catalog.registry.entryPoints.findSome? (refusal? catalog) = some error := by
  rw [← foldlM_addEntryPoint_eq_error_iff (fun _ => entity?_of_mem_entryPoints) .empty,
    generate, ← site]
  cases site catalog options with
  | error other => simp [bind, Except.bind]
  | ok built => simp [bind, Except.bind, pure, Except.pure]

/-- The error names the first entry point that has no place. -/
theorem generate_eq_error_iff {error : Error} :
    generate catalog options = .error error ↔
      ∃ before id after entity, catalog.registry.entryPoints = before ++ id :: after ∧
        (∀ earlier ∈ before, ∃ other : Entity, catalog.entity? earlier = some other ∧
          ¬ HasNoBase other.location.fileName) ∧
        catalog.entity? id = some entity ∧ HasNoBase entity.location.fileName ∧
        error = .invalidDocumentPath id entity.location.fileName := by
  have accepted : ∀ id ∈ catalog.registry.entryPoints, refusal? catalog id = none ↔
      ∃ entity : Entity, catalog.entity? id = some entity ∧
        ¬ HasNoBase entity.location.fileName := by
    intro id listed
    obtain ⟨entity, found⟩ := entity?_of_mem_entryPoints listed
    simp [refusal?, found]
  have earlierListed : ∀ {before id after earlier},
      catalog.registry.entryPoints = before ++ id :: after → earlier ∈ before →
        earlier ∈ catalog.registry.entryPoints :=
    fun split inBefore => split ▸ List.mem_append_left _ inBefore
  rw [generate_eq_error_iff_findSome?, List.findSome?_eq_some_iff]
  constructor
  · rintro ⟨before, id, after, split, refused, clean⟩
    obtain ⟨entity, found, noBase, errorEq⟩ := refusal?_eq_some_iff.mp refused
    exact ⟨before, id, after, entity, split,
      fun earlier inBefore =>
        (accepted earlier (earlierListed split inBefore)).mp (clean earlier inBefore),
      found, noBase, errorEq⟩
  · rintro ⟨before, id, after, entity, split, clean, found, noBase, errorEq⟩
    exact ⟨before, id, after, split,
      refusal?_eq_some_iff.mpr ⟨entity, found, noBase, errorEq⟩,
      fun earlier inBefore =>
        (accepted earlier (earlierListed split inBefore)).mpr (clean earlier inBefore)⟩

theorem exists_generate_eq_error_iff :
    (∃ error, generate catalog options = .error error) ↔
      ∃ id ∈ catalog.registry.entryPoints, ∃ entity, catalog.entity? id = some entity ∧
        HasNoBase entity.location.fileName := by
  simp only [generate_eq_error_iff_findSome?, ← Option.isSome_iff_exists,
    List.findSome?_isSome_iff]
  refine exists_congr fun id => and_congr_right fun _ => ?_
  rw [Option.isSome_iff_exists]
  constructor
  · rintro ⟨error, refused⟩
    obtain ⟨entity, found, noBase, _⟩ := refusal?_eq_some_iff.mp refused
    exact ⟨entity, found, noBase⟩
  · rintro ⟨entity, found, noBase⟩
    exact ⟨_, refusal?_eq_some_iff.mpr ⟨entity, found, noBase, rfl⟩⟩

/-! ## Reporting -/

/-- The documents for a catalog, with the warnings about them reported to a sink while they are
written. -/
def generateInto (catalog : Catalog) (options : Options) :
    ExceptT Error Reporting (List Document) := do
  let site ← catalog.registry.entryPoints.foldlM
    (fun site id => MonadExcept.ofExcept (addEntryPoint catalog options site id)) .empty
  ExceptT.lift (site.writeDocuments catalog (!options.skipContents))

/-- Placing entry points reports nothing. -/
theorem foldlM_ofExcept (ids : List EntityId) (before : Site) (sink : List Diagnostic) :
    (ids.foldlM (fun site id => MonadExcept.ofExcept (addEntryPoint catalog options site id))
        before : ExceptT Error Reporting Site).run sink =
      (ids.foldlM (addEntryPoint catalog options) before, sink) := by
  induction ids generalizing before with
  | nil => rfl
  | cons id rest ih =>
      rw [List.foldlM_cons, List.foldlM_cons]
      cases addEntryPoint catalog options before id with
      | error error => rfl
      | ok next => exact ih next

/-- Generation with a sink is generation, and the warnings reach the sink when it succeeds. -/
theorem run_generateInto (sink : List Diagnostic) :
    (generateInto catalog options).run sink =
      match generate catalog options with
      | .error error => (.error error, sink)
      | .ok (documents, warnings) => (.ok documents, sink ++ warnings) := by
  have placed := @foldlM_ofExcept catalog options catalog.registry.entryPoints .empty sink
  rw [← site] at placed
  rw [generate, generateInto, ExceptT.run_bind]
  simp only [bind, StateT.bind, placed]
  cases site catalog options with
  | error error => rfl
  | ok built =>
      have written := @Site.writeDocuments_eq_output catalog (!options.skipContents) built sink
      simp only [ExceptT.run_lift, Functor.map, StateT.map, written]
      rfl

/-- Making a manual fails exactly when the source file of an entry point has a name that is
empty or ends with a separator.  The error names the first such entry point with its file name,
and nothing has been reported to the sink by then.  Entry points and what is rendered for them
are never unknown: no page that is rendered is refused, at any depth. -/
theorem generation_fails_iff (catalog : Catalog) (options : Options) :
    ((∃ error, generate catalog options = .error error) ↔
      ∃ id ∈ catalog.registry.entryPoints, ∃ entity, catalog.entity? id = some entity ∧
        HasNoBase entity.location.fileName) ∧
    (∀ error, generate catalog options = .error error ↔
      ∃ before id after entity, catalog.registry.entryPoints = before ++ id :: after ∧
        (∀ earlier ∈ before, ∃ other : Entity, catalog.entity? earlier = some other ∧
          ¬ HasNoBase other.location.fileName) ∧
        catalog.entity? id = some entity ∧ HasNoBase entity.location.fileName ∧
        error = .invalidDocumentPath id entity.location.fileName) ∧
    (∀ sink, (generateInto catalog options).run sink =
      match generate catalog options with
      | .error error => (.error error, sink)
      | .ok (documents, warnings) => (.ok documents, sink ++ warnings)) ∧
    (∀ id, generate catalog options ≠ .error (.unknownEntryPoint id) ∧
      generate catalog options ≠ .error (.unknownEntity id)) ∧
    ∀ before path entity, (Site.add catalog options.extension path before
      (Page.render catalog options.language entity (.of entity))).2 = none := by
  have unreachable : ∀ error, generate catalog options = .error error →
      ∃ id fileName, error = .invalidDocumentPath id fileName := by
    intro error failed
    obtain ⟨_, id, _, entity, _, _, _, _, errorEq⟩ := generate_eq_error_iff.mp failed
    exact ⟨id, entity.location.fileName, errorEq⟩
  refine ⟨exists_generate_eq_error_iff, fun _ => generate_eq_error_iff, run_generateInto,
    fun id => ⟨fun failed => ?_, fun failed => ?_⟩, add_render⟩
  · obtain ⟨_, _, errorEq⟩ := unreachable _ failed
    cases errorEq
  · obtain ⟨_, _, errorEq⟩ := unreachable _ failed
    cases errorEq

end Manual

end ApiManual
