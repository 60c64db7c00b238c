import ApiManual.Error
import ApiManual.Json
import ApiManual.Text.Blank

/-! # Options -/

namespace ApiManual

/-- The options of a run. The extension comes without a leading dot. -/
structure Options where
  skipContents : Bool
  extension : String
  language : String
  deriving DecidableEq, Repr

namespace Options

/-- The options of a run that is told nothing. -/
def default : Options := ⟨false, "md", "typescript"⟩

def fault? (options : Options) : Option OptionFault :=
  if options.extension = "" then some .emptyExtension
  else if options.extension.toList.any fun char => char ∈ ['.', '/', '\\'] then
    some (.separatorInExtension options.extension)
  else if options.language.toList.any Text.isBlank then some .blankInLanguage
  else none

def validate (options : Options) : Except Error Options :=
  match options.fault? with
  | some fault => .error (.invalidOption fault)
  | none => .ok options

/-- The names under which the options are given, in order. -/
def names : List String :=
  ["skip_table_of_contents", "output_extension", "code_language"]

/-- The options that a value gives. An object may hold nothing but options; an
array gives the first of them in order. -/
def ofJson? (value : Json) : Option Options := do
  let fields ← value.record? names
  if fields.all (·.1 ∈ names) then
    return {
      skipContents := ←
        Json.field? fields "skip_table_of_contents" false Json.flag?
      extension := ← Json.field? fields "output_extension" "md" Json.text?
      language := ← Json.field? fields "code_language" "typescript" Json.text? }
  else none

end Options

end ApiManual
