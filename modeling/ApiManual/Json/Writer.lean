import ApiManual.Json

/-!
# Writing JSON text

Two layouts of the same value: compact, and indented by two spaces a level.
Only quotes, backslashes and control characters are escaped.
-/

namespace ApiManual.Json

def hexDigit (value : Nat) : Char :=
  if value < 10 then Char.ofNat ('0'.toNat + value)
  else Char.ofNat ('a'.toNat + (value - 10))

def escape (char : Char) : List Char :=
  match char with
  | '"' => ['\\', '"']
  | '\\' => ['\\', '\\']
  | '\x08' => ['\\', 'b']
  | '\x0c' => ['\\', 'f']
  | '\n' => ['\\', 'n']
  | '\r' => ['\\', 'r']
  | '\t' => ['\\', 't']
  | char =>
      if char.toNat < 0x20 then
        ['\\', 'u', '0', '0', hexDigit (char.toNat / 16), hexDigit (char.toNat % 16)]
      else [char]

def quote (text : String) : String :=
  "\"" ++ String.ofList (text.toList.flatMap escape) ++ "\""

def boolText (value : Bool) : String := if value then "true" else "false"

mutual

/-- A value on one line, without spaces. An unreadable part has no text of its
own and is written as `null`. -/
def compact : Json → String
  | .null | .unreadable => "null"
  | .bool value => boolText value
  | .number text => text
  | .string text => quote text
  | .array items => "[" ++ ",".intercalate (compactItems items) ++ "]"
  | .object fields =>
      "\x7b" ++ ",".intercalate (compactFields fields) ++ "\x7d"

def compactItems : List Json → List String
  | [] => []
  | item :: rest => item.compact :: compactItems rest

def compactFields : List (String × Json) → List String
  | [] => []
  | (key, value) :: rest =>
      (quote key ++ ":" ++ value.compact) :: compactFields rest

end

def indentation (level : Nat) : String :=
  String.ofList (List.replicate (2 * level) ' ')

/-- The entries of a container, one a line, between its brackets. An empty
container stays on one line. -/
def bracketed (level : Nat) (opening closing : String)
    (entries : List String) : String :=
  if entries.isEmpty then opening ++ closing
  else
    let lineStart := "\n" ++ indentation (level + 1)
    opening ++ lineStart ++ ("," ++ lineStart).intercalate entries ++
      "\n" ++ indentation level ++ closing

mutual

/-- A value over several lines, as it stands `level` levels deep. -/
def indented (level : Nat) : Json → String
  | .array items => bracketed level "[" "]" (indentedItems (level + 1) items)
  | .object fields =>
      bracketed level "\x7b" "\x7d" (indentedFields (level + 1) fields)
  | value => value.compact

def indentedItems (level : Nat) : List Json → List String
  | [] => []
  | item :: rest => item.indented level :: indentedItems level rest

def indentedFields (level : Nat) : List (String × Json) → List String
  | [] => []
  | (key, value) :: rest =>
      (quote key ++ ": " ++ value.indented level) :: indentedFields level rest

end

def pretty (value : Json) : String := value.indented 0

def ofNat (value : Nat) : Json := .number value.repr

/-- An optional value, `null` when it is absent. -/
def ofOption {α : Type} (write : α → Json) : Option α → Json
  | none => .null
  | some value => write value

def ofList {α : Type} (write : α → Json) (values : List α) : Json :=
  .array (values.map write)

end ApiManual.Json
