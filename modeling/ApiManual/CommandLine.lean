import ApiManual.Text.Lines
import ApiManual.Text.Split

/-!
# Command line

What the words of a command line ask for.  Words are first read one by one into
arguments, of which the first that cannot be read or that asks for help or the
version decides; only the arguments before it count.
-/

namespace ApiManual

/-- What a run is to read, and what it is to do with the documents. -/
structure Request where
  metadata : String
  output : String
  configuration : Option String
  skipContents : Bool
  asJson : Bool
  quiet : Bool
  deriving DecidableEq, Repr

inductive Command where
  | generate (request : Request)
  | help
  | version
  deriving DecidableEq, Repr

namespace CommandLine

inductive Setting where
  | metadata
  | output
  | configuration
  | skipContents
  | asJson
  | verbose
  | quiet
  | help
  | version
  deriving DecidableEq, Repr

namespace Setting

def takesValue : Setting → Bool
  | .metadata | .output | .configuration => true
  | _ => false

/-- Whether a setting ends the reading of the command line. -/
def isFinal : Setting → Bool
  | .help | .version => true
  | _ => false

def ofName? : String → Option Setting
  | "output" => some .output
  | "config" => some .configuration
  | "skip-toc" => some .skipContents
  | "json" => some .asJson
  | "verbose" => some .verbose
  | "quiet" => some .quiet
  | "help" => some .help
  | "version" => some .version
  | _ => none

def ofLetter? : Char → Option Setting
  | 'o' => some .output
  | 'c' => some .configuration
  | 'v' => some .verbose
  | 'q' => some .quiet
  | 'h' => some .help
  | 'V' => some .version
  | _ => none

end Setting

/-! ## Arguments -/

/-- A setting with its value, a setting without one, or what is neither. -/
inductive Argument where
  | valued (setting : Setting) (value : String)
  | plain (setting : Setting)
  | invalid
  deriving DecidableEq, Repr

namespace Argument

/-- Whether an argument leaves the arguments after it to be read. -/
def isOrdinary : Argument → Bool
  | .valued _ _ => true
  | .plain setting => !setting.isFinal
  | .invalid => false

def setting? : Argument → Option Setting
  | .valued setting _ | .plain setting => some setting
  | .invalid => none

end Argument

/-- Arguments, and a setting that waits for the next word as its value. -/
abbrev Reading := List Argument × Option Setting

/-- What a word after two hyphens says. A value follows `=`. -/
def ofName (word : List Char) : Reading :=
  let (name, value) := match Text.splitFirst? '=' word with
    | some (name, value) => (name, some (String.ofList value))
    | none => (word, none)
  match Setting.ofName? (String.ofList name), value with
  | none, _ => ([.invalid], none)
  | some setting, some value =>
      ([if setting.takesValue then .valued setting value else .invalid], none)
  | some setting, none =>
      if setting.takesValue then ([], some setting) else ([.plain setting], none)

/-- What letters after one hyphen say. The first setting with a value takes all
letters behind it as its value, without a `=` at their start. -/
def ofLetters : List Char → Reading
  | [] => ([], none)
  | letter :: letters =>
      match Setting.ofLetter? letter with
      | none => ([.invalid], none)
      | some setting =>
          if setting.takesValue then
            if letters = [] then ([], some setting)
            else
              let value := (['='].isPrefixOf? letters).getD letters
              ([.valued setting (String.ofList value)], none)
          else
            let (arguments, waiting) := ofLetters letters
            (.plain setting :: arguments, waiting)

/-- What a word says. A lone hyphen is a path. -/
def ofWord (word : String) : Reading :=
  match word.toList with
  | '-' :: '-' :: name => ofName name
  | '-' :: letter :: letters => ofLetters (letter :: letters)
  | _ => ([.valued .metadata word], none)

/-- Whether a word can be the value of the setting before it. -/
def isValue (word : String) : Bool :=
  match word.toList with
  | '-' :: _ :: _ => false
  | _ => true

/-- The arguments that words make, when a setting may be waiting for its value.
All words after `--` are paths. -/
def arguments : (waiting : Option Setting) → List String → List Argument
  | none, [] => []
  | some _, [] => [.invalid]
  | some setting, word :: words =>
      if isValue word then .valued setting word :: arguments none words
      else [.invalid]
  | none, word :: words =>
      if word = "--" then words.map (.valued .metadata)
      else
        let (given, waiting) := ofWord word
        given ++ arguments waiting words

/-! ## Commands -/

def value? (given : List Argument) (setting : Setting) : Option String :=
  given.findSome? fun
    | .valued other value => if other = setting then some value else none
    | _ => none

def isMade (given : List Argument) (setting : Setting) : Bool :=
  .plain setting ∈ given

/-- Whether no setting is made twice, except that of verbosity, and no value is
empty. -/
def isConsistent (given : List Argument) : Bool :=
  decide ((given.filterMap Argument.setting?).filter (· ≠ .verbose)).Nodup &&
    given.all fun
      | .valued _ value => value ≠ ""
      | _ => true

/-- The run that arguments ask for. Its metadata must be named, and it cannot be
both verbose and quiet. -/
def request? (given : List Argument) : Option Request :=
  if isMade given .verbose ∧ isMade given .quiet then none
  else (value? given .metadata).map fun metadata =>
    { metadata
      output := (value? given .output).getD "docs"
      configuration := value? given .configuration
      skipContents := isMade given .skipContents
      asJson := isMade given .asJson
      quiet := isMade given .quiet }

/-- What arguments ask for. The first that is not ordinary decides. -/
def command? (arguments : List Argument) : Option Command :=
  let given := arguments.takeWhile Argument.isOrdinary
  if isConsistent given then
    match arguments.dropWhile Argument.isOrdinary with
    | [] => (request? given).map .generate
    | .plain .help :: _ => some .help
    | .plain .version :: _ => some .version
    | _ => none
  else none

def versionText : String := "apidoc 0.3.0\n"

def helpText : String :=
  Text.joined "\n"
    ["Generate Markdown API documentation from extracted metadata",
     "",
     "Usage: apidoc [OPTIONS] <METADATA>",
     "",
     "Arguments:",
     "  <METADATA>  Path to the extracted metadata (JSON)",
     "",
     "Options:",
     "  -o, --output <OUTPUT>  Output directory [default: docs]",
     "  -c, --config <CONFIG>  Configuration file (defaults to ./apidoc.toml when present)",
     "      --skip-toc         Do not prepend tables of contents",
     "      --json             Print the generated documents as JSON instead of writing them",
     "  -v, --verbose...       Increase log verbosity (-v debug, -vv trace)",
     "  -q, --quiet            Only log errors",
     "  -h, --help             Print help",
     "  -V, --version          Print version",
     ""]

end CommandLine

def Command.ofWords? (words : List String) : Option Command :=
  CommandLine.command? (CommandLine.arguments none words)

namespace Command

example : ofWords? ["-qo=out", "m.json", "--skip-toc"] =
    some (.generate ⟨"m.json", "out", none, true, false, true⟩) := by decide +kernel

example : ofWords? ["m.json", "-o", "--version"] = none := by decide +kernel

example : ofWords? ["-qV", "--json=1"] = some .version := by decide +kernel

end Command

end ApiManual
