import ApiManual.Metadata.Document
import ApiManual.Proofs.Registry.Loading

/-!
# Calls on registries

What calls do to a registry can be read off the calls that succeed: one registers an entity after
the others, one adds an entry point after the others, and loading starts anew with what it is
given.  Which calls succeed depends on the registered identifiers alone, and a call that fails
leaves the registry as it was, also when loading fails half way.
-/

namespace ApiManual

/-- The entities and entry points that a text describes. -/
def Metadata.described? (text : String) : Option (List Entity × List EntityId) :=
  (Json.parse? text).bind fun document => parts? (document.within levels)

namespace Registry

/-- A call on a registry. The last two put another registry in its place, made of entities and
entry points or described by a text. -/
inductive Call where
  | insert (entity : Entity)
  | addEntryPoint (id : EntityId)
  | load (entities : List Entity) (entryPoints : List EntityId)
  | read (text : String)

namespace Call

/-- The registry that a call makes of another one. -/
def attempt (registry : Registry) : Call → Except Error Registry
  | .insert entity => registry.insert entity
  | .addEntryPoint id => registry.addEntryPoint id
  | .load entities entryPoints => ofEntities entities entryPoints
  | .read text => ofText text

/-- The registry after a call, and why the call failed if it did. -/
def perform (registry : Registry) (call : Call) : Registry × Option Error :=
  match call.attempt registry with
  | .ok next => (next, none)
  | .error error => (registry, some error)

/-- The entities after a call that succeeds. -/
def entitiesAfter (before : List Entity) : Call → List Entity
  | .insert entity => before ++ [entity]
  | .addEntryPoint _ => before
  | .load entities _ => entities
  | .read text => match Metadata.described? text with
    | some (entities, _) => entities
    | none => before

/-- The entry points after a call that succeeds. -/
def entryPointsAfter (before : List EntityId) : Call → List EntityId
  | .insert _ => before
  | .addEntryPoint id => before ++ [id]
  | .load _ entryPoints => entryPoints
  | .read text => match Metadata.described? text with
    | some (_, entryPoints) => entryPoints
    | none => before

/-- Why a call fails while certain identifiers are registered. -/
inductive Refused (registered : List EntityId) : Call → Error → Prop where
  | insert {entity : Entity} (known : entity.id ∈ registered) :
      Refused registered (.insert entity) (.duplicateEntity entity.id)
  | addEntryPoint {id : EntityId} (missing : id ∉ registered) :
      Refused registered (.addEntryPoint id) (.unknownEntryPoint id)
  | load {entities : List Entity} {entryPoints : List EntityId} {error : Error}
      (fault : Unloadable entities entryPoints error) :
      Refused registered (.load entities entryPoints) error
  | unreadable {text : String} (nothing : Metadata.described? text = none) :
      Refused registered (.read text) .malformedMetadata
  | read {text : String} {entities : List Entity} {entryPoints : List EntityId} {error : Error}
      (described : Metadata.described? text = some (entities, entryPoints))
      (fault : Unloadable entities entryPoints error) :
      Refused registered (.read text) error

end Call

/-- The registry after calls one after the other, and what each of them answers. -/
def run (registry : Registry) : List Call → Registry × List (Option Error)
  | [] => (registry, [])
  | call :: rest =>
      let (next, answer) := call.perform registry
      let (last, answers) := next.run rest
      (last, answer :: answers)

/-- The calls that succeed. -/
def accepted (calls : List Call) (answers : List (Option Error)) : List Call :=
  ((calls.zip answers).filter (·.2.isNone)).map (·.1)

/-! ## One call -/

namespace Call

variable {registry next : Registry}

/-- What a text describes is loaded. -/
theorem ofText_of_described {text : String} {entities : List Entity} {entryPoints : List EntityId}
    (described : Metadata.described? text = some (entities, entryPoints)) :
    ofText text = ofEntities entities entryPoints := by
  rw [Metadata.described?] at described
  rw [ofText, described]

theorem ofText_of_not_described {text : String} (nothing : Metadata.described? text = none) :
    ofText text = .error .malformedMetadata := by
  rw [Metadata.described?] at nothing
  rw [ofText, nothing]

theorem attempt_of_refused {call : Call} {error : Error}
    (refused : call.Refused registry.ids error) : call.attempt registry = .error error := by
  cases refused with
  | insert known => exact insert_of_mem known
  | addEntryPoint missing => exact addEntryPoint_of_not_mem missing
  | load fault => exact ofEntities_of_unloadable fault
  | unreadable nothing => exact ofText_of_not_described nothing
  | read described fault =>
      rw [attempt, ofText_of_described described]
      exact ofEntities_of_unloadable fault

/-- A call succeeds and does what it is for, unless it is refused. -/
theorem attempt_cases (registry : Registry) (call : Call) :
    (∃ next, call.attempt registry = .ok next ∧
      next.entities = call.entitiesAfter registry.entities ∧
      next.entryPoints = call.entryPointsAfter registry.entryPoints) ∨
    ∃ error, call.Refused registry.ids error := by
  cases call with
  | insert entity =>
      by_cases known : entity.id ∈ registry.ids
      · exact .inr ⟨_, .insert known⟩
      · exact .inl (insert_of_fresh known)
  | addEntryPoint id =>
      by_cases known : id ∈ registry.ids
      · exact .inl (addEntryPoint_of_mem known)
      · exact .inr ⟨_, .addEntryPoint known⟩
  | load entities entryPoints =>
      cases loadable_or_unloadable entities entryPoints with
      | inl loadable => exact .inl ⟨_, ofEntities_eq_ok loadable.1 loadable.2, rfl, rfl⟩
      | inr unloadable =>
          obtain ⟨error, fault⟩ := unloadable
          exact .inr ⟨error, .load fault⟩
  | read text =>
      cases described : Metadata.described? text with
      | none => exact .inr ⟨_, .unreadable described⟩
      | some parts =>
          obtain ⟨entities, entryPoints⟩ := parts
          simp only [attempt, entitiesAfter, entryPointsAfter, described,
            ofText_of_described described]
          cases loadable_or_unloadable entities entryPoints with
          | inl loadable => exact .inl ⟨_, ofEntities_eq_ok loadable.1 loadable.2, rfl, rfl⟩
          | inr unloadable =>
              obtain ⟨error, fault⟩ := unloadable
              exact .inr ⟨error, .read described fault⟩

/-- A call that succeeds does what it is for; a call that is refused leaves the registry as it
was. -/
theorem perform_cases (registry : Registry) (call : Call) :
    (∃ next, call.perform registry = (next, none) ∧
      next.entities = call.entitiesAfter registry.entities ∧
      next.entryPoints = call.entryPointsAfter registry.entryPoints ∧
      ∀ error, ¬ call.Refused registry.ids error) ∨
    ∃ error, call.perform registry = (registry, some error) ∧
      call.Refused registry.ids error := by
  cases attempt_cases registry call with
  | inl succeeds =>
      obtain ⟨next, made, entities, entryPoints⟩ := succeeds
      refine .inl ⟨next, by rw [perform, made], entities, entryPoints, fun error refused => ?_⟩
      rw [attempt_of_refused refused] at made
      cases made
  | inr fails =>
      obtain ⟨error, refused⟩ := fails
      exact .inr ⟨error, by rw [perform, attempt_of_refused refused], refused⟩

end Call

/-! ## Many calls -/

theorem run_cons (registry : Registry) (call : Call) (rest : List Call) :
    registry.run (call :: rest) =
      (((call.perform registry).1.run rest).1,
        (call.perform registry).2 :: ((call.perform registry).1.run rest).2) := rfl

/-- Every call has an answer. -/
theorem length_answers (registry : Registry) (calls : List Call) :
    (registry.run calls).2.length = calls.length := by
  induction calls generalizing registry with
  | nil => rfl
  | cons call rest ih =>
      rw [run_cons, List.length_cons, ih, List.length_cons]

theorem run_concat (registry : Registry) (calls : List Call) (last : Call) :
    registry.run (calls ++ [last]) =
      ((last.perform (registry.run calls).1).1,
        (registry.run calls).2 ++ [(last.perform (registry.run calls).1).2]) := by
  induction calls generalizing registry with
  | nil => rfl
  | cons call rest ih =>
      rw [List.cons_append, run_cons, run_cons, ih, List.cons_append]

/-- A registry holds what the calls that succeed have left. -/
theorem contents_run (registry : Registry) (calls : List Call) :
    (registry.run calls).1.entities =
        (accepted calls (registry.run calls).2).foldl Call.entitiesAfter registry.entities ∧
      (registry.run calls).1.entryPoints =
        (accepted calls (registry.run calls).2).foldl Call.entryPointsAfter
          registry.entryPoints := by
  induction calls generalizing registry with
  | nil => exact ⟨rfl, rfl⟩
  | cons call rest ih =>
      cases Call.perform_cases registry call with
      | inl succeeds =>
          obtain ⟨next, performed, entities, entryPoints, _⟩ := succeeds
          have later := ih next
          rw [entities, entryPoints] at later
          rw [run_cons, performed]
          exact later
      | inr fails =>
          obtain ⟨error, performed, _⟩ := fails
          rw [run_cons, performed]
          exact ih registry

/-- After any calls on an empty registry, the entities are those of the calls that succeeded, in
order, and so are the entry points, with repetitions; loading starts anew.  No identifier is held
twice, every entry point is registered, and what is found under an identifier is the entity that
has it.  The next call either succeeds or is refused for what is registered, and then the registry
stays as it is.  Entities and entry points can be loaded exactly when identifiers are distinct and
entry points among them, and else the first thing that is wrong is reported. -/
theorem run_keeps_record (calls : List Call) :
    ∃ registry answers, empty.run calls = (registry, answers) ∧ answers.length = calls.length ∧
      registry.entities = (accepted calls answers).foldl Call.entitiesAfter [] ∧
      registry.entryPoints = (accepted calls answers).foldl Call.entryPointsAfter [] ∧
      registry.ids.Nodup ∧ (∀ id ∈ registry.entryPoints, id ∈ registry.ids) ∧
      (∀ id entity, registry.get? id = some entity ↔
        entity ∈ registry.entities ∧ entity.id = id) ∧
      (∀ call,
        (∃ next, empty.run (calls ++ [call]) = (next, answers ++ [none]) ∧
          ∀ error, ¬ call.Refused registry.ids error) ∨
        ∃ error, empty.run (calls ++ [call]) = (registry, answers ++ [some error]) ∧
          call.Refused registry.ids error) ∧
      ∀ entities entryPoints,
        ((∃ loaded, ofEntities entities entryPoints = .ok loaded) ↔
          (entities.map (·.id)).Nodup ∧ ∀ id ∈ entryPoints, id ∈ entities.map (·.id)) ∧
        ∀ error, ofEntities entities entryPoints = .error error ↔
          Unloadable entities entryPoints error := by
  obtain ⟨entities, entryPoints⟩ := contents_run empty calls
  have next (call : Call) := run_concat empty calls call
  have length := length_answers empty calls
  generalize empty.run calls = result at entities entryPoints next length
  obtain ⟨registry, answers⟩ := result
  refine ⟨registry, answers, rfl, length, entities, entryPoints, registry.ids_nodup,
    registry.entryPoints_registered, fun id entity => get?_eq_some_iff, fun call => ?_,
    fun _ _ => ⟨exists_ofEntities_eq_ok_iff, fun _ => ofEntities_eq_error_iff⟩⟩
  rw [next call]
  cases Call.perform_cases registry call with
  | inl succeeds =>
      obtain ⟨after, performed, _, _, allowed⟩ := succeeds
      rw [performed]
      exact .inl ⟨after, rfl, allowed⟩
  | inr fails =>
      obtain ⟨error, performed, refused⟩ := fails
      rw [performed]
      exact .inr ⟨error, rfl, refused⟩

end Registry

end ApiManual
