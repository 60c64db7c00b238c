import ApiManual.Proofs.Catalog.Acceptance
import Mathlib.Logic.Basic

/-!
# Which fault is reported

A registry that is refused is refused with one fault, and the fault is really there.  References
to what is not registered come first, in the order of registration and of the parts of a
declaration; then the first entity from which parents lead to some entity a second time; then an
entity that is its own member.

Neither of the last two is read off the walk that reports it.  The walk along parents skips what
earlier entities have settled, which hides no entity that is to be blamed, and the walk over
members blames an identifier that it is still below.
-/

namespace ApiManual.Registry

open Relation

variable {registry : Registry} {error : Error} {id source target : EntityId}

/-- All that an entity is made of is registered. -/
def Complete (registry : Registry) (entity : Entity) : Prop :=
  ∀ id ∈ entity.declaration.members ++ entity.declaration.parameters ++
    entity.declaration.typeParameters, id ∈ registry.ids

/-- Going from parent to parent leads to some identifier a second time. -/
def Revisits (registry : Registry) (id : EntityId) : Prop :=
  ∃ again, ReflTransGen registry.IsParent id again ∧ TransGen registry.IsParent again again

/-- What is wrong with a registry. An identifier is blamed for its parents when it is the first
that they never end for; it need not be met again itself. -/
inductive Fault (registry : Registry) : Error → Prop where
  | unknownReference {before after : List Entity} {entity : Entity}
      {known later : List EntityId} {target : EntityId}
      (split : registry.entities = before ++ entity :: after)
      (earlier : ∀ other ∈ before, registry.Complete other)
      (parts : entity.declaration.members ++ entity.declaration.parameters ++
        entity.declaration.typeParameters = known ++ target :: later)
      (registered : ∀ id ∈ known, id ∈ registry.ids)
      (unknown : target ∉ registry.ids) :
      Fault registry (.unknownReference entity.id target)
  | cyclicParentChain {before after : List Entity} {entity : Entity}
      (complete : ∀ other ∈ registry.entities, registry.Complete other)
      (split : registry.entities = before ++ entity :: after)
      (earlier : ∀ other ∈ before, ¬ registry.Revisits other.id)
      (revisits : registry.Revisits entity.id) :
      Fault registry (.cyclicParentChain entity.id)
  | cyclicMembership {id : EntityId}
      (complete : ∀ other ∈ registry.entities, registry.Complete other)
      (straight : ∀ other ∈ registry.entities, ¬ registry.Revisits other.id)
      (registered : id ∈ registry.ids)
      (cycle : TransGen registry.Lists id id) :
      Fault registry (.cyclicMembership id)

theorem not_revisits_iff : ¬ registry.Revisits id ↔ registry.LineageEnds id := by
  simp only [lineageEnds_iff, Revisits, not_exists, not_and]

/-! ## The three searches -/

/-- A part of an entity is found to be unregistered exactly when it is the first one. -/
theorem find?_references_eq_some_iff {entity : Entity} :
    entity.declaration.references.find? (!registry.contains ·) = some target ↔
      ∃ known later, entity.declaration.members ++ entity.declaration.parameters ++
          entity.declaration.typeParameters = known ++ target :: later ∧
        (∀ id ∈ known, id ∈ registry.ids) ∧ target ∉ registry.ids := by
  simp only [List.find?_eq_some_iff_append, Declaration.references, Bool.not_not,
    contains_iff, Bool.not_eq_true', ← Bool.not_eq_true]
  constructor
  · rintro ⟨unknown, known, later, parts, registered⟩
    exact ⟨known, later, parts, registered, unknown⟩
  · rintro ⟨known, later, parts, registered, unknown⟩
    exact ⟨unknown, known, later, parts, registered⟩

theorem find?_references_eq_none_iff {entity : Entity} :
    entity.declaration.references.find? (!registry.contains ·) = none ↔
      registry.Complete entity := by
  simp only [List.find?_eq_none, Declaration.references, Bool.not_eq_true', ← Bool.not_eq_true,
    not_not, contains_iff]
  rfl

theorem unknownReference?_eq_some_iff :
    registry.unknownReference? = some (source, target) ↔
      registry.Fault (.unknownReference source target) := by
  rw [unknownReference?, List.findSome?_eq_some_iff]
  simp only [Option.map_eq_some_iff, Option.map_eq_none_iff, Prod.mk.injEq,
    find?_references_eq_some_iff, find?_references_eq_none_iff]
  constructor
  · rintro ⟨before, entity, after, split, ⟨_, ⟨known, later, parts, registered, unknown⟩, rfl, rfl⟩,
      earlier⟩
    exact .unknownReference split earlier parts registered unknown
  · rintro (⟨split, earlier, parts, registered, unknown⟩)
    exact ⟨_, _, _, split, ⟨target, ⟨_, _, parts, registered, unknown⟩, rfl, rfl⟩, earlier⟩

theorem unknownReference?_eq_none_iff_complete :
    registry.unknownReference? = none ↔
      ∀ entity ∈ registry.entities, registry.Complete entity :=
  unknownReference?_eq_none_iff

theorem endlessLineage?_eq_none_iff_not_revisits :
    registry.endlessLineage? = none ↔
      ∀ entity ∈ registry.entities, ¬ registry.Revisits entity.id := by
  simp only [endlessLineage?_eq_none_iff, not_revisits_iff]

/-- The search along parents finds the first entity from which some identifier is met again. -/
theorem endlessLineage?_eq_some_iff (complete : registry.unknownReference? = none) :
    registry.endlessLineage? = some id ↔ registry.Fault (.cyclicParentChain id) := by
  rw [endlessLineage?_eq_find?, ids, List.find?_map, Option.map_eq_some_iff]
  simp only [List.find?_eq_some_iff_append, Function.comp_apply, Bool.not_eq_true',
    decide_eq_false_iff_not, Bool.not_not, decide_eq_true_eq, ← not_revisits_iff, not_not]
  constructor
  · rintro ⟨entity, ⟨revisits, before, after, split, earlier⟩, rfl⟩
    exact .cyclicParentChain (unknownReference?_eq_none_iff.mp complete) split earlier revisits
  · rintro (_ | ⟨_, split, earlier, revisits⟩)
    exact ⟨_, ⟨revisits, _, _, split, earlier⟩, rfl⟩

/-- The walk over members fails at an identifier that is its own member. -/
theorem fault_of_containersFirst (complete : registry.unknownReference? = none)
    (straight : registry.endlessLineage? = none)
    (failed : registry.containersFirst = .error id) :
    registry.Fault (.cyclicMembership id) := by
  have cycle : TransGen registry.Lists id id := cyclic_of_settle_eq_error (by simp) failed
  obtain ⟨_, ⟨entity, registered, rfl, _⟩, _⟩ := TransGen.head'_iff.mp cycle
  exact .cyclicMembership (unknownReference?_eq_none_iff_complete.mp complete)
    (endlessLineage?_eq_none_iff_not_revisits.mp straight) (List.mem_map_of_mem registered) cycle

/-- A registry is refused by the first search that finds something. -/
theorem ofRegistry_eq_error_iff :
    Catalog.ofRegistry registry = .error error ↔
      (∃ source target, registry.unknownReference? = some (source, target) ∧
        error = .unknownReference source target) ∨
      (registry.unknownReference? = none ∧ ∃ id, registry.endlessLineage? = some id ∧
        error = .cyclicParentChain id) ∨
      (registry.unknownReference? = none ∧ registry.endlessLineage? = none ∧
        ∃ id, registry.containersFirst = .error id ∧ error = .cyclicMembership id) := by
  unfold Catalog.ofRegistry
  split
  · next source target unknown => simp [unknown, eq_comm, and_assoc]
  · next complete =>
      split
      · next id endless => simp [complete, endless, eq_comm]
      · next straight =>
          split
          · next id failed => simp [complete, straight, failed, eq_comm]
          · next order settled => simp [complete, straight, settled]

/-- What the searches for the first two kinds of fault find in a registry with a given fault. -/
theorem Fault.searches (fault : registry.Fault error) :
    (∃ source target, error = .unknownReference source target ∧
        registry.unknownReference? = some (source, target)) ∨
      (∃ id, error = .cyclicParentChain id ∧ registry.unknownReference? = none ∧
        registry.endlessLineage? = some id) ∨
      ∃ id, error = .cyclicMembership id ∧ registry.unknownReference? = none ∧
        registry.endlessLineage? = none := by
  cases fault with
  | unknownReference split earlier parts registered unknown =>
      have fault := Fault.unknownReference split earlier parts registered unknown
      exact .inl ⟨_, _, rfl, unknownReference?_eq_some_iff.mpr fault⟩
  | cyclicParentChain complete split earlier revisits =>
      have fault := Fault.cyclicParentChain complete split earlier revisits
      have known := unknownReference?_eq_none_iff_complete.mpr complete
      exact .inr (.inl ⟨_, rfl, known, (endlessLineage?_eq_some_iff known).mpr fault⟩)
  | cyclicMembership complete straight _ _ =>
      exact .inr (.inr ⟨_, rfl, unknownReference?_eq_none_iff_complete.mpr complete,
        endlessLineage?_eq_none_iff_not_revisits.mpr straight⟩)

end ApiManual.Registry

namespace ApiManual.Catalog

/-- What a refused registry is refused for is a fault that it has. It has no other fault, apart
from other identifiers that are their own members where only membership is at fault. -/
theorem refusal_names_fault {registry : Registry} {error : Error}
    (refused : ofRegistry registry = .error error) :
    registry.Fault error ∧ ∀ other, registry.Fault other → other = error ∨
      ∃ id again, error = .cyclicMembership id ∧ other = .cyclicMembership again := by
  rcases Registry.ofRegistry_eq_error_iff.mp refused with
    ⟨source, target, unknown, rfl⟩ | ⟨complete, id, endless, rfl⟩ |
      ⟨complete, straight, id, failed, rfl⟩
  · refine ⟨Registry.unknownReference?_eq_some_iff.mp unknown, fun other fault => .inl ?_⟩
    rcases fault.searches with ⟨_, _, rfl, found⟩ | ⟨_, _, none, _⟩ | ⟨_, _, none, _⟩
    · cases unknown.symm.trans found
      rfl
    · cases unknown.symm.trans none
    · cases unknown.symm.trans none
  · refine ⟨(Registry.endlessLineage?_eq_some_iff complete).mp endless, fun other fault => .inl ?_⟩
    rcases fault.searches with ⟨_, _, _, found⟩ | ⟨_, rfl, _, found⟩ | ⟨_, _, _, none⟩
    · cases complete.symm.trans found
    · cases endless.symm.trans found
      rfl
    · cases endless.symm.trans none
  · refine ⟨Registry.fault_of_containersFirst complete straight failed, fun other fault => .inr ?_⟩
    rcases fault.searches with ⟨_, _, _, found⟩ | ⟨_, _, _, found⟩ | ⟨again, rfl, _, _⟩
    · cases complete.symm.trans found
    · cases straight.symm.trans found
    · exact ⟨id, again, rfl, rfl⟩

/-- Two functions that name each other as parents, and one below them. The source file and its
member come first and are fine. -/
def feedback : Registry where
  entities := [
    { id := ⟨"file:audio"⟩, name := "audio", parent := none
      location := ⟨"src/audio.ts", 1, 1⟩, doc := none
      declaration := .sourceFile [⟨"function:play"⟩] },
    { id := ⟨"function:play"⟩, name := "play", parent := none
      location := ⟨"src/audio.ts", 2, 1⟩, doc := none
      declaration := .function [] [] none false },
    { id := ⟨"function:tune"⟩, name := "tune", parent := some ⟨"function:gain"⟩
      location := ⟨"src/audio.ts", 3, 1⟩, doc := none
      declaration := .function [] [] none false },
    { id := ⟨"function:gain"⟩, name := "gain", parent := some ⟨"function:mix"⟩
      location := ⟨"src/audio.ts", 4, 1⟩, doc := none
      declaration := .function [] [] none false },
    { id := ⟨"function:mix"⟩, name := "mix", parent := some ⟨"function:gain"⟩
      location := ⟨"src/audio.ts", 5, 1⟩, doc := none
      declaration := .function [] [] none false }]
  entryPoints := [⟨"file:audio"⟩]
  ids_nodup := by decide
  entryPoints_registered := by decide

/-- The first function that never gets out of the loop is blamed, although it is nobody's
parent. -/
theorem refusal_of_feedback_names_tune :
    ofRegistry feedback = .error (.cyclicParentChain ⟨"function:tune"⟩) ∧
      feedback.Fault (.cyclicParentChain ⟨"function:tune"⟩) ∧
      ∀ id ∈ feedback.ids, feedback.parent? id ≠ some ⟨"function:tune"⟩ := by
  have complete : feedback.unknownReference? = none := by decide +kernel
  have endless : feedback.endlessLineage? = some ⟨"function:tune"⟩ := by decide +kernel
  have refused : ofRegistry feedback = .error (.cyclicParentChain ⟨"function:tune"⟩) :=
    Registry.ofRegistry_eq_error_iff.mpr (.inr (.inl ⟨complete, _, endless, rfl⟩))
  exact ⟨refused, (refusal_names_fault refused).1, by decide +kernel⟩

end ApiManual.Catalog
