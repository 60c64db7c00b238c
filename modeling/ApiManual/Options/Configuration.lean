import ApiManual.Options
import ApiManual.Text.Lines

/-!
# Configuration texts

Options written as a flat TOML document.  Tables, dotted names and values that
are neither truth values nor texts cannot give an option, so they are as much an
error as a fault of grammar, and the reader knows none of them.
-/

namespace ApiManual.Configuration

/-- A value that an option can have. -/
inductive Value where
  | flag (value : Bool)
  | text (value : String)
  deriving DecidableEq, Repr

def isSpace (char : Char) : Bool := char = ' ' || char = '\t'

/-- Whether a character may stand in a comment or text: anything but a control
character, of which only the tab is allowed. -/
def isPlain (char : Char) : Bool :=
  char = '\t' || (0x20 ≤ char.toNat && char.toNat ≠ 0x7f)

def isNameChar (char : Char) : Bool :=
  char.isAlphanum || char = '_' || char = '-'

/-! ## Quoted texts -/

def hexDigit? (char : Char) : Option Nat :=
  if char.isDigit then some (char.toNat - '0'.toNat)
  else if 'a' ≤ char ∧ char ≤ 'f' then some (char.toNat - 'a'.toNat + 10)
  else if 'A' ≤ char ∧ char ≤ 'F' then some (char.toNat - 'A'.toNat + 10)
  else none

/-- The character whose code point is written with hexadecimal digits. -/
def scalar? (digits : List Char) : Option Char := do
  let code ← digits.foldlM (fun code digit => do
    return code * 16 + (← hexDigit? digit)) 0
  if code.isValidChar then some (Char.ofNat code) else none

/-- The character that a backslash followed by `char` stands for. -/
def escaped? (char : Char) : Option Char :=
  match char with
  | 'b' => some '\x08'
  | 't' => some '\t'
  | 'n' => some '\n'
  | 'f' => some '\x0c'
  | 'r' => some '\r'
  | '"' => some '"'
  | '\\' => some '\\'
  | _ => none

/-- A text in double quotes, and what follows it. The characters in `done` come
before, in reverse. -/
def basic? (done : List Char) : List Char → Option (List Char × List Char)
  | [] => none
  | '"' :: rest => some (done.reverse, rest)
  | '\\' :: 'u' :: a :: b :: c :: d :: rest =>
      match scalar? [a, b, c, d] with
      | some char => basic? (char :: done) rest
      | none => none
  | '\\' :: 'U' :: a :: b :: c :: d :: e :: f :: g :: h :: rest =>
      match scalar? [a, b, c, d, e, f, g, h] with
      | some char => basic? (char :: done) rest
      | none => none
  | '\\' :: char :: rest =>
      match escaped? char with
      | some image => basic? (image :: done) rest
      | none => none
  | char :: rest =>
      if char ≠ '\\' ∧ isPlain char then basic? (char :: done) rest else none

/-- A text in single quotes, and what follows it. It has no escapes. -/
def literal? (done : List Char) : List Char → Option (List Char × List Char)
  | [] => none
  | '\'' :: rest => some (done.reverse, rest)
  | char :: rest => if isPlain char then literal? (char :: done) rest else none

/-- The characters after a line end, when they begin with one. -/
def afterLineEnd? : List Char → Option (List Char)
  | '\n' :: rest | '\r' :: '\n' :: rest => some rest
  | _ => none

/-- A text in three double quotes, and what follows it. One or two quotes may
stand in it, also directly before the closing ones. A backslash at the end of a
line removes the line end and all space after it; while that space is passed
over the reader is `trimming`. -/
def multilineBasic? (done : List Char) (trimming : Bool) :
    List Char → Option (List Char × List Char)
  | [] => none
  | '"' :: '"' :: '"' :: '"' :: '"' :: rest =>
      some (('"' :: '"' :: done).reverse, rest)
  | '"' :: '"' :: '"' :: '"' :: rest => some (('"' :: done).reverse, rest)
  | '"' :: '"' :: '"' :: rest => some (done.reverse, rest)
  | '\\' :: 'u' :: a :: b :: c :: d :: rest =>
      match scalar? [a, b, c, d] with
      | some char => multilineBasic? (char :: done) false rest
      | none => none
  | '\\' :: 'U' :: a :: b :: c :: d :: e :: f :: g :: h :: rest =>
      match scalar? [a, b, c, d, e, f, g, h] with
      | some char => multilineBasic? (char :: done) false rest
      | none => none
  | '\\' :: char :: rest =>
      match escaped? char with
      | some image => multilineBasic? (image :: done) false rest
      | none =>
          if (afterLineEnd? ((char :: rest).dropWhile isSpace)).isSome then
            multilineBasic? done true (char :: rest)
          else none
  | '\r' :: '\n' :: rest | '\n' :: rest =>
      multilineBasic? (if trimming then done else '\n' :: done) trimming rest
  | char :: rest =>
      if trimming ∧ isSpace char then multilineBasic? done true rest
      else if char ≠ '\\' ∧ isPlain char then
        multilineBasic? (char :: done) false rest
      else none

/-- A text in three single quotes, and what follows it. One or two quotes may
stand in it, also directly before the closing ones. -/
def multilineLiteral? (done : List Char) :
    List Char → Option (List Char × List Char)
  | [] => none
  | '\'' :: '\'' :: '\'' :: '\'' :: '\'' :: rest =>
      some (('\'' :: '\'' :: done).reverse, rest)
  | '\'' :: '\'' :: '\'' :: '\'' :: rest => some (('\'' :: done).reverse, rest)
  | '\'' :: '\'' :: '\'' :: rest => some (done.reverse, rest)
  | '\r' :: '\n' :: rest | '\n' :: rest => multilineLiteral? ('\n' :: done) rest
  | char :: rest =>
      if isPlain char then multilineLiteral? (char :: done) rest else none

def skipLineEnd (chars : List Char) : List Char :=
  (afterLineEnd? chars).getD chars

/-- A text in any of the four forms, and what follows it. A line end directly
after three opening quotes does not belong to the text. -/
def quoted? : List Char → Option (List Char × List Char)
  | '"' :: '"' :: '"' :: rest => multilineBasic? [] false (skipLineEnd rest)
  | '"' :: rest => basic? [] rest
  | '\'' :: '\'' :: '\'' :: rest => multilineLiteral? [] (skipLineEnd rest)
  | '\'' :: rest => literal? [] rest
  | _ => none

/-! ## Settings -/

def value? (chars : List Char) : Option (Value × List Char) :=
  match "true".toList.isPrefixOf? chars, "false".toList.isPrefixOf? chars with
  | some rest, _ => some (.flag true, rest)
  | _, some rest => some (.flag false, rest)
  | _, _ => (quoted? chars).map fun (text, rest) =>
      (.text (String.ofList text), rest)

/-- A name, and what follows it. A quoted name stands on one line. -/
def name? : List Char → Option (List Char × List Char)
  | '"' :: rest => basic? [] rest
  | '\'' :: rest => literal? [] rest
  | chars =>
      let name := chars.takeWhile isNameChar
      if name = [] then none else some (name, chars.dropWhile isNameChar)

def setting? (chars : List Char) : Option ((String × Value) × List Char) := do
  let (name, rest) ← name? chars
  let rest ← ['='].isPrefixOf? (rest.dropWhile isSpace)
  let (value, rest) ← value? (rest.dropWhile isSpace)
  return ((String.ofList name, value), rest)

/-- What follows a line, of which only space and a comment may be left. -/
def afterLine? (chars : List Char) : Option (List Char) :=
  let rest := match chars.dropWhile isSpace with
    | '#' :: comment => comment.dropWhile isPlain
    | rest => rest
  if rest = [] then some [] else afterLineEnd? rest

/-- The setting on a line, if there is one, and what follows the line. -/
def line? (chars : List Char) : Option (Option (String × Value) × List Char) :=
  match afterLine? chars with
  | some rest => some (none, rest)
  | none => do
      let (setting, rest) ← setting? (chars.dropWhile isSpace)
      return (some setting, ← afterLine? rest)

/-- The settings on all lines. Every line takes at least one character; that it
does is checked, so that reading ends. -/
def settings? (chars : List Char) : Option (List (String × Value)) :=
  if chars = [] then some []
  else
    match line? chars with
    | none => none
    | some (setting, rest) =>
        if _shorter : rest.length < chars.length then
          (settings? rest).map (setting.toList ++ ·)
        else none
termination_by chars.length

/-! ## Options -/

def Value.flag? : Value → Option Bool
  | .flag value => some value
  | .text _ => none

def Value.text? : Value → Option String
  | .flag _ => none
  | .text value => some value

/-- The options that settings give. A name that is no option and a name given
twice are errors. -/
def options? (settings : List (String × Value)) : Option Options := do
  if settings.all (·.1 ∈ Options.names) then
    return {
      skipContents := ←
        Json.field? settings "skip_table_of_contents" false Value.flag?
      extension := ← Json.field? settings "output_extension" "md" Value.text?
      language := ←
        Json.field? settings "code_language" "typescript" Value.text? }
  else none

/-- A text without the byte order mark it may begin with. -/
def withoutMark : List Char → List Char
  | '\ufeff' :: rest => rest
  | chars => chars

end ApiManual.Configuration

namespace ApiManual

def Options.ofText (text : String) : Except Error Options :=
  match (Configuration.settings? (Configuration.withoutMark text.toList)).bind
      Configuration.options? with
  | none => .error .malformedConfiguration
  | some options => options.validate

end ApiManual
