import ApiManual.Proofs.Catalog.Acceptance
import ApiManual.Proofs.FileTree.LastText
import ApiManual.Run

/-!
# Outcomes of runs

A run reads its configuration and its metadata, makes a catalog and generates documents.  It may
stop at each of these stages, and then it prints nothing and changes no file.  Only when the
documents are there does it print or write them: printing changes no file, and writing goes from
document to document, up to the first that cannot be written.
-/

namespace ApiManual

namespace Catalog

/-- A catalog is made from its registry when its order is the one that is found. -/
theorem ofRegistry_registry {catalog : Catalog}
    (settled : catalog.registry.containersFirst = .ok catalog.order) :
    ofRegistry catalog.registry = .ok catalog := by
  have known : catalog.registry.unknownReference? = none :=
    Registry.unknownReference?_eq_none_iff.mpr fun entity registered id reference =>
      Registry.contains_iff.mp (catalog.references_registered entity registered id reference)
  have ends : catalog.registry.endlessLineage? = none :=
    Registry.endlessLineage?_eq_none_iff.mpr catalog.lineages_end
  unfold ofRegistry
  split
  · next unknown =>
      rw [known] at unknown
      cases unknown
  · split
    · next endless =>
        rw [ends] at endless
        cases endless
    · split
      · next cyclic =>
          rw [settled] at cyclic
          cases cyclic
      · next order found =>
          obtain rfl : catalog.order = order := Except.ok.inj (settled.symm.trans found)
          rfl

end Catalog

namespace Request

variable {request : Request} {tree : FileTree} {options : Options} {documents : List Document}
  {warnings : List Diagnostic} {failure : Failure}

/-! ## Stages of a run -/

/-- The options that the files give a run: those of a configuration that can be read, and the
default ones when none is named and the usual one is no file. -/
inductive Configured (request : Request) (tree : FileTree) : Options → Prop where
  | given {text : String} {options : Options}
      (read : tree.read? request.configurationPath = some text)
      (valid : Options.ofText text = .ok options) : Configured request tree options
  | absent (unnamed : request.configuration = none)
      (missing : tree.read? defaultConfiguration = none) : Configured request tree .default

/-- The options of a run: its command line can leave out the tables of contents as well. -/
def adjusted (request : Request) (options : Options) : Options :=
  { options with skipContents := options.skipContents || request.skipContents }

/-- All stages of a run succeed, with the given documents and warnings. -/
inductive Generates (request : Request) (tree : FileTree) (documents : List Document)
    (warnings : List Diagnostic) : Prop where
  | intro {options : Options} {text : String} {registry : Registry} {catalog : Catalog}
      (configured : request.Configured tree options)
      (read : tree.read? request.metadata = some text)
      (registered : Registry.ofText text = .ok registry)
      (sound : Catalog.ofRegistry registry = .ok catalog)
      (generated :
        Manual.generate catalog (request.adjusted options) = .ok (documents, warnings))

/-- A run stops at one of its stages, after those before it have succeeded. -/
inductive Stops (request : Request) (tree : FileTree) : Failure → Prop where
  | missingConfiguration {path : String} (named : request.configuration = some path)
      (missing : tree.read? path = none) : Stops request tree (.unreadable path)
  | refusedConfiguration {text : String} {error : Error}
      (read : tree.read? request.configurationPath = some text)
      (refused : Options.ofText text = .error error) : Stops request tree (.refused error)
  | missingMetadata {options : Options} (configured : request.Configured tree options)
      (missing : tree.read? request.metadata = none) :
      Stops request tree (.unreadable request.metadata)
  | refusedMetadata {options : Options} {text : String} {error : Error}
      (configured : request.Configured tree options)
      (read : tree.read? request.metadata = some text)
      (refused : Registry.ofText text = .error error) : Stops request tree (.refused error)
  | refusedRegistry {options : Options} {text : String} {registry : Registry} {error : Error}
      (configured : request.Configured tree options)
      (read : tree.read? request.metadata = some text)
      (registered : Registry.ofText text = .ok registry)
      (refused : Catalog.ofRegistry registry = .error error) :
      Stops request tree (.refused error)
  | refusedManual {options : Options} {text : String} {registry : Registry} {catalog : Catalog}
      {error : Error} (configured : request.Configured tree options)
      (read : tree.read? request.metadata = some text)
      (registered : Registry.ofText text = .ok registry)
      (sound : Catalog.ofRegistry registry = .ok catalog)
      (refused : Manual.generate catalog (request.adjusted options) = .error error) :
      Stops request tree (.refused error)

/-- Every run stops or succeeds. -/
theorem stops_or_generates (request : Request) (tree : FileTree) :
    (∃ failure, request.Stops tree failure) ∨
      ∃ documents warnings, request.Generates tree documents warnings := by
  have configuration : (∃ failure, request.Stops tree failure) ∨
      ∃ options, request.Configured tree options := by
    cases read : tree.read? request.configurationPath with
    | some text =>
        cases valid : Options.ofText text with
        | error error => exact .inl ⟨_, .refusedConfiguration read valid⟩
        | ok options => exact .inr ⟨options, .given read valid⟩
    | none =>
        cases named : request.configuration with
        | some path =>
            rw [configurationPath, named, Option.getD_some] at read
            exact .inl ⟨_, .missingConfiguration named read⟩
        | none =>
            rw [configurationPath, named, Option.getD_none] at read
            exact .inr ⟨.default, .absent named read⟩
  rcases configuration with stopped | ⟨options, configured⟩
  · exact .inl stopped
  · cases read : tree.read? request.metadata with
    | none => exact .inl ⟨_, .missingMetadata configured read⟩
    | some text =>
        cases registered : Registry.ofText text with
        | error error => exact .inl ⟨_, .refusedMetadata configured read registered⟩
        | ok registry =>
            cases sound : Catalog.ofRegistry registry with
            | error error => exact .inl ⟨_, .refusedRegistry configured read registered sound⟩
            | ok catalog =>
                cases generated : Manual.generate catalog (request.adjusted options) with
                | error error =>
                    exact .inl ⟨_, .refusedManual configured read registered sound generated⟩
                | ok result =>
                    exact .inr ⟨result.1, result.2,
                      .intro configured read registered sound generated⟩

/-! ## Plans -/

theorem options_of_text (request : Request) (text : String) :
    request.options (some text) =
      ((Options.ofText text).mapError .refused).map request.adjusted := by
  unfold Request.options
  dsimp only
  cases Options.ofText text <;> rfl

theorem options_of_configured (configured : request.Configured tree options) :
    request.options (tree.read? request.configurationPath) = .ok (request.adjusted options) := by
  cases configured with
  | given read valid =>
      rw [read, options_of_text, valid]
      rfl
  | absent unnamed missing =>
      unfold Request.options
      rw [configurationPath, unnamed, Option.getD_none, missing]
      rfl

/-- With its options and the text of its metadata, a run depends on the catalog and on what is
generated for it. -/
theorem plan_of_configured {text : String} (configured : request.Configured tree options)
    (read : tree.read? request.metadata = some text) :
    request.plan (tree.read? request.configurationPath) (tree.read? request.metadata) =
      match (Registry.ofText text).bind Catalog.ofRegistry with
      | .error error => .error (.refused error)
      | .ok catalog =>
          match Manual.generate catalog (request.adjusted options) with
          | .error error => .error (.refused error)
          | .ok (documents, warnings) =>
              .ok (if request.asJson then .printing documents warnings
                else .writing request.output documents warnings) := by
  have made : (Registry.ofText text).bind Catalog.ofRegistry = Catalog.ofText text := rfl
  unfold plan
  rw [options_of_configured configured, read, made]
  simp only [bind, Except.bind]
  cases Catalog.ofText text with
  | error error => rfl
  | ok catalog =>
      simp only [Except.mapError]
      cases Manual.generate catalog (request.adjusted options) <;> rfl

/-- A run that stops has no plan. -/
theorem plan_of_stops (stopped : request.Stops tree failure) :
    request.plan (tree.read? request.configurationPath) (tree.read? request.metadata) =
      .error failure := by
  cases stopped with
  | missingConfiguration named missing =>
      unfold plan Request.options
      rw [configurationPath, named, Option.getD_some, missing]
      rfl
  | refusedConfiguration read refused =>
      rw [plan, read, options_of_text, refused]
      rfl
  | missingMetadata configured missing =>
      rw [plan, options_of_configured configured, missing]
      rfl
  | refusedMetadata configured read refused =>
      rw [plan_of_configured configured read, refused]
      rfl
  | refusedRegistry configured read registered refused =>
      rw [plan_of_configured configured read, registered, Except.bind, refused]
  | refusedManual configured read registered sound refused =>
      rw [plan_of_configured configured read, registered, Except.bind, sound]
      dsimp only
      rw [refused]

/-- What a run does with its documents. -/
theorem plan_of_generates (generates : request.Generates tree documents warnings) :
    request.plan (tree.read? request.configurationPath) (tree.read? request.metadata) =
      .ok (if request.asJson then .printing documents warnings
        else .writing request.output documents warnings) := by
  obtain ⟨configured, read, registered, sound, generated⟩ := generates
  rw [plan_of_configured configured read, registered, Except.bind, sound]
  dsimp only
  rw [generated]

end Request

namespace CommandLine

/-- A run stops before anything is printed or written, or it has documents. These it prints
without changing a file, or it writes each of them below its output directory: a file then has
the text of the last document for its place, and if a document cannot be written, this holds of
the documents before it and nothing is printed. -/
theorem run_writes_what_is_generated {words : List String} {request : Request}
    (accepted : Command.ofWords? words = some (.generate request)) (tree : FileTree) :
    ((∃ failure, request.Stops tree failure) ∨
      ∃ documents warnings, request.Generates tree documents warnings) ∧
    (∀ failure, request.Stops tree failure → run words tree = ⟨1, "", tree⟩) ∧
    ∀ documents warnings, request.Generates tree documents warnings →
      let writes := documents.map fun document =>
        (Plan.pathIn request.output document.location, document.text)
      (request.asJson = true → run words tree =
        ⟨0, (Json.ofList Document.toJson documents).pretty ++ "\n", tree⟩) ∧
      (request.asJson = false →
        (∃ next, tree.writeAll writes = (next, none) ∧ tree.Written next writes ∧
          run words tree =
            ⟨0, String.join (writes.map fun write => "Generated: " ++ write.1 ++ "\n"), next⟩) ∨
        ∃ before path text after next, writes = before ++ (path, text) :: after ∧
          tree.writeAll before = (next, none) ∧ tree.Written next before ∧
          next.write? path text = none ∧ run words tree = ⟨1, "", next⟩) := by
  have outcome : run words tree = request.run tree := by
    rw [run, accepted]
    rfl
  rw [outcome, Request.run]
  refine ⟨request.stops_or_generates tree, ?_, ?_⟩
  · intro failure stopped
    rw [Request.plan_of_stops stopped]
  · intro documents warnings generates writes
    rw [Request.plan_of_generates generates]
    refine ⟨fun json => ?_, fun files => ?_⟩
    · rw [if_pos json]
      rfl
    · have planned : (Plan.writing request.output documents warnings).writes = writes := rfl
      have printed : (Plan.writing request.output documents warnings).printed =
          String.join (writes.map fun write => "Generated: " ++ write.1 ++ "\n") := by
        rw [List.map_map]
        rfl
      rw [if_neg (by simp [files])]
      dsimp only
      rw [Plan.carryOut, planned, printed]
      rcases tree.writeAll_cases writes with ⟨next, done⟩ | stopped
      · refine .inl ⟨next, done, FileTree.written_of_writeAll done, ?_⟩
        rw [done]
      · obtain ⟨before, path, text, after, next, split, done, stuck, failed⟩ := stopped
        refine .inr ⟨before, path, text, after, next, split, done,
          FileTree.written_of_writeAll done, stuck, ?_⟩
        rw [failed]

/-- A source file without members. -/
def greeting : Catalog where
  registry := {
    entities := [
      { id := ⟨"f"⟩, name := "hi", parent := none, location := ⟨"hi", 0, 0⟩, doc := none
        declaration := .sourceFile [] }]
    entryPoints := [⟨"f"⟩]
    ids_nodup := by decide
    entryPoints_registered := by decide }
  references_registered := by decide
  lineages_end := by decide +kernel
  order := [⟨"f"⟩]
  order_containersFirst := .cons (by decide) (by decide) .nil
  order_complete := by decide

/-- Metadata of that source file. -/
def greetingText : String :=
  "\x7b\"entry_points\":[\"f\"],\"entities\":[\x7b\"id\":\"f\",\"name\":\"hi\"," ++
    "\"kind\":\"source_file\",\"location\":\x7b\"file_name\":\"hi\"\x7d\x7d]\x7d"

/-- The metadata beside a configuration, and a document from before. -/
def desk : FileTree :=
  .ofFiles [("m.json", greetingText), ("apidoc.toml", "output_extension = \"txt\""),
    ("docs/hi.txt", "old\n")]

set_option maxRecDepth 8192 in
theorem ofText_greetingText : Registry.ofText greetingText = .ok greeting.registry := by
  have parsed : Json.parse? greetingText = some (.object
      [("entry_points", .array [.string "f"]),
       ("entities", .array [.object
         [("id", .string "f"), ("name", .string "hi"), ("kind", .string "source_file"),
          ("location", .object [("file_name", .string "hi")])]])]) := by rfl
  rw [Registry.ofText, parsed]
  rfl

theorem containersFirst_greeting : greeting.registry.containersFirst = .ok greeting.order := by
  have ids : greeting.registry.ids = [⟨"f"⟩] := by rfl
  have members : greeting.registry.membersOf ⟨"f"⟩ = [] := by decide
  rw [Registry.containersFirst, ids, Registry.settle, members, Registry.settle]
  simp only [List.not_mem_nil, dite_false, if_false, Registry.settle]
  rfl

/-- The document is written over the one from before, with the extension that the configuration
gives. -/
theorem run_on_desk_writes_greeting :
    ∃ next, run ["m.json", "--skip-toc"] desk = ⟨0, "Generated: docs/hi.txt\n", next⟩ ∧
      next.read? "docs/hi.txt" = some "# hi\n\n[f]: hi.txt#hi\n" := by
  have accepted : Command.ofWords? ["m.json", "--skip-toc"] =
      some (.generate ⟨"m.json", "docs", none, true, false, false⟩) := by decide +kernel
  have generates : Request.Generates ⟨"m.json", "docs", none, true, false, false⟩ desk
      [⟨"hi.txt", ["# hi", "", "[f]: hi.txt#hi"]⟩] [] := by
    have valid : Options.ofText "output_extension = \"txt\"" =
        .ok ⟨false, "txt", "typescript"⟩ := by decide +kernel
    exact .intro (.given (by decide +kernel) valid) (by decide +kernel) ofText_greetingText
      (Catalog.ofRegistry_registry containersFirst_greeting) (by decide +kernel)
  obtain ⟨_, _, succeed⟩ := run_writes_what_is_generated accepted desk
  rcases (succeed _ _ generates).2 rfl with ⟨next, _, written, outcome⟩ | stopped
  · refine ⟨next, outcome.trans (by congr 1), ?_⟩
    exact (written.readable _ List.mem_cons_self).trans (by decide +kernel)
  · obtain ⟨before, path, text, after, next, split, done, _, stuck, _⟩ := stopped
    cases before with
    | nil =>
        cases done
        cases split
        exact absurd stuck (by decide +kernel)
    | cons first rest =>
        cases rest <;> cases split

end CommandLine

end ApiManual
