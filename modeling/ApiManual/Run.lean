import ApiManual.CommandLine
import ApiManual.FileTree
import ApiManual.Json.Writer
import ApiManual.Manual
import ApiManual.Options.Configuration

/-!
# Runs

A run first makes a plan from the texts it has read; nothing is printed or
written when that fails.  A plan that has writes prints only once all of them
have succeeded.
-/

namespace ApiManual

inductive Failure where
  | unreadable (path : String)
  | refused (error : Error)
  | unwritable (path : String)
  deriving DecidableEq, Repr

def Failure.message : Failure → String
  | .unreadable path => "failed to read '" ++ path ++ "'"
  | .refused error => error.message
  | .unwritable path => "failed to write '" ++ path ++ "'"

/-- What a run does: the texts it writes to paths, in order, what it prints, and
what it warns of. -/
structure Plan where
  writes : List (String × String)
  printed : String
  warnings : List Diagnostic
  deriving DecidableEq, Repr

namespace Plan

/-- The path of a location below a directory. A location from the root stays
what it is. -/
def pathIn (directory location : String) : String :=
  match location.toList with
  | '/' :: _ => location
  | _ =>
      match directory.toList.getLast? with
      | none | some '/' => directory ++ location
      | _ => directory ++ "/" ++ location

/-- Prints documents as one value. -/
def printing (documents : List Document) (warnings : List Diagnostic) : Plan :=
  { writes := []
    printed := (Json.ofList Document.toJson documents).pretty ++ "\n"
    warnings }

/-- Writes documents below a directory and prints the path of each. -/
def writing (directory : String) (documents : List Document)
    (warnings : List Diagnostic) : Plan :=
  let path (document : Document) := pathIn directory document.location
  { writes := documents.map fun document => (path document, document.text)
    printed := String.join
      (documents.map fun document => "Generated: " ++ path document ++ "\n")
    warnings }

end Plan

namespace Request

/-- The configuration that is read when none is named. It may be missing. -/
def defaultConfiguration : String := "apidoc.toml"

def configurationPath (request : Request) : String :=
  request.configuration.getD defaultConfiguration

/-- The options of a run, given the text of its configuration if there is one.
A command line can switch tables of contents off, but not on. -/
def options (request : Request) (configuration : Option String) :
    Except Failure Options := do
  let options ← match configuration with
    | some text => (Options.ofText text).mapError .refused
    | none =>
        match request.configuration with
        | some path => .error (.unreadable path)
        | none => .ok .default
  return { options with
    skipContents := options.skipContents || request.skipContents }

/-- What a run does, given the texts of its configuration and its metadata as
far as they can be read. -/
def plan (request : Request) (configuration metadata : Option String) :
    Except Failure Plan := do
  let options ← request.options configuration
  let text ← match metadata with
    | some text => .ok text
    | none => .error (.unreadable request.metadata)
  let catalog ← (Catalog.ofText text).mapError .refused
  let (documents, warnings) ←
    (Manual.generate catalog options).mapError .refused
  return if request.asJson then .printing documents warnings
    else .writing request.output documents warnings

end Request

/-- How a run ends: its exit status, what it printed and the files there are. -/
structure Outcome where
  status : Nat
  printed : String
  tree : FileTree
  deriving Repr

/-- Carries out a plan. Writes before the one that fails stay. -/
def Plan.carryOut (plan : Plan) (tree : FileTree) : Outcome :=
  match tree.writeAll plan.writes with
  | (tree, none) => ⟨0, plan.printed, tree⟩
  | (tree, some _) => ⟨1, "", tree⟩

def Request.run (request : Request) (tree : FileTree) : Outcome :=
  match request.plan (tree.read? request.configurationPath)
      (tree.read? request.metadata) with
  | .ok plan => plan.carryOut tree
  | .error _ => ⟨1, "", tree⟩

def Command.run (command : Command) (tree : FileTree) : Outcome :=
  match command with
  | .generate request => request.run tree
  | .help => ⟨0, CommandLine.helpText, tree⟩
  | .version => ⟨0, CommandLine.versionText, tree⟩

/-- Does what the words of a command line ask for. Words that make no sense have
a status of their own. -/
def CommandLine.run (words : List String) (tree : FileTree) : Outcome :=
  match Command.ofWords? words with
  | none => ⟨2, "", tree⟩
  | some command => command.run tree

end ApiManual
