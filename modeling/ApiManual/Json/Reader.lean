import ApiManual.Json
import ApiManual.Json.Number

/-!
# Reading JSON text

A strict reader: no comments, no trailing commas, no byte order mark, no raw
control characters in texts.  The text is read one character at a time by a
machine whose state is the part of a token just begun and the containers still
open, so reading two texts one after the other is reading their concatenation.
-/

namespace ApiManual.Json

/-- A word, a number, a quoted text or a punctuation mark. The body of a quoted
text still has its escapes. -/
inductive Token where
  | word (letters : List Char)
  | quoted (body : List Char)
  | beginArray
  | endArray
  | beginObject
  | endObject
  | colon
  | comma

def Token.punctuation? (char : Char) : Option Token :=
  match char with
  | '[' => some .beginArray
  | ']' => some .endArray
  | '\x7b' => some .beginObject
  | '\x7d' => some .endObject
  | ':' => some .colon
  | ',' => some .comma
  | _ => none

def isSpace (char : Char) : Bool :=
  char = ' ' || char = '\t' || char = '\n' || char = '\r'

/-! ## Quoted texts -/

def hexDigit? (char : Char) : Option Nat :=
  if '0' ≤ char ∧ char ≤ '9' then some (char.toNat - '0'.toNat)
  else if 'a' ≤ char ∧ char ≤ 'f' then some (char.toNat - 'a'.toNat + 10)
  else if 'A' ≤ char ∧ char ≤ 'F' then some (char.toNat - 'A'.toNat + 10)
  else none

/-- The code unit written with four hexadecimal digits. -/
def codeUnit? (a b c d : Char) : Option Nat := do
  return (((← hexDigit? a) * 16 + (← hexDigit? b)) * 16 + (← hexDigit? c)) * 16 +
    (← hexDigit? d)

/-- The character that a backslash followed by `char` stands for. -/
def escaped? (char : Char) : Option Char :=
  match char with
  | '"' => some '"'
  | '\\' => some '\\'
  | '/' => some '/'
  | 'b' => some '\x08'
  | 'f' => some '\x0c'
  | 'n' => some '\n'
  | 'r' => some '\r'
  | 't' => some '\t'
  | _ => none

/-- The code points of a quoted text after those in `done`, which come in
reverse. A surrogate written as an escape is a code point of its own here. -/
def codePoints? (done : List Nat) : List Char → Option (List Nat)
  | [] => some done.reverse
  | '\\' :: 'u' :: a :: b :: c :: d :: rest =>
      match codeUnit? a b c d with
      | some unit => codePoints? (unit :: done) rest
      | none => none
  | '\\' :: char :: rest =>
      match escaped? char with
      | some image => codePoints? (image.toNat :: done) rest
      | none => none
  | char :: rest =>
      if char = '\\' ∨ char.toNat < 0x20 then none
      else codePoints? (char.toNat :: done) rest

/-- The characters that code points stand for after those in `done`, which come
in reverse. A leading surrogate and the trailing one directly after it are one
character; any other surrogate is none. -/
def characters? (done : List Char) : List Nat → Option (List Char)
  | [] => some done.reverse
  | high :: low :: rest =>
      if 0xD800 ≤ high ∧ high ≤ 0xDBFF then
        if 0xDC00 ≤ low ∧ low ≤ 0xDFFF then
          let code := 0x10000 + (high - 0xD800) * 0x400 + (low - 0xDC00)
          characters? (Char.ofNat code :: done) rest
        else none
      else if 0xDC00 ≤ high ∧ high ≤ 0xDFFF then none
      else characters? (Char.ofNat high :: done) (low :: rest)
  | [code] =>
      if 0xD800 ≤ code ∧ code ≤ 0xDFFF then none
      else some (Char.ofNat code :: done).reverse

/-- What a quoted text denotes: `none` when an escape or a character in it is
not allowed, `some none` when it holds an unpaired surrogate. -/
def quotedText? (body : List Char) : Option (Option String) :=
  (codePoints? [] body).map fun codes =>
    (characters? [] codes).map String.ofList

def wordValue? (letters : List Char) : Option Json :=
  if letters = ['n', 'u', 'l', 'l'] then some .null
  else if letters = ['t', 'r', 'u', 'e'] then some (.bool true)
  else if letters = ['f', 'a', 'l', 's', 'e'] then some (.bool false)
  else (Decimal.ofChars? letters).map fun decimal =>
    if decimal.isBeyondDouble then .unreadable
    else .number (String.ofList letters)

def Token.value? : Token → Option Json
  | .word letters => wordValue? letters
  | .quoted body => (quotedText? body).map fun
      | some text => .string text
      | none => .unreadable
  | _ => none

/-! ## Containers -/

/-- A container that is still open: the part of it read so far, last first. An
object is `readable` while all its keys are texts. -/
inductive Enclosing where
  | array (items : List Json)
  | object (fields : List (String × Json)) (readable : Bool) (key : String)

inductive Expecting where
  | value
  | firstItem
  | firstKey
  | key (fields : List (String × Json)) (readable : Bool)
  | colon (fields : List (String × Json)) (readable : Bool) (key : String)
  | afterValue (value : Json)

/-- The containers still open, innermost first, and what may come next in the
innermost one. -/
structure State where
  enclosing : List Enclosing
  expecting : Expecting

/-- The object made of fields that come last first. -/
def closedObject (fields : List (String × Json)) (readable : Bool) : Json :=
  if readable then .object fields.reverse else .unreadable

namespace State

def start : State := ⟨[], .value⟩

def acceptValue (enclosing : List Enclosing) : Token → Option State
  | .beginArray => some ⟨.array [] :: enclosing, .firstItem⟩
  | .beginObject => some ⟨enclosing, .firstKey⟩
  | token => token.value?.map fun value => ⟨enclosing, .afterValue value⟩

def acceptKey (enclosing : List Enclosing) (fields : List (String × Json))
    (readable : Bool) : Token → Option State
  | .quoted body => (quotedText? body).map fun
      | some key => ⟨enclosing, .colon fields readable key⟩
      | none => ⟨enclosing, .colon fields false ""⟩
  | _ => none

def acceptAfter (value : Json) : List Enclosing → Token → Option State
  | .array items :: outer, .comma =>
      some ⟨.array (value :: items) :: outer, .value⟩
  | .array items :: outer, .endArray =>
      some ⟨outer, .afterValue (.array (value :: items).reverse)⟩
  | .object fields readable key :: outer, .comma =>
      some ⟨outer, .key ((key, value) :: fields) readable⟩
  | .object fields readable key :: outer, .endObject =>
      some ⟨outer, .afterValue (closedObject ((key, value) :: fields) readable)⟩
  | _, _ => none

def accept (state : State) (token : Token) : Option State :=
  match state.expecting, token with
  | .value, token => acceptValue state.enclosing token
  | .firstItem, .endArray =>
      some ⟨state.enclosing.tail, .afterValue (.array [])⟩
  | .firstItem, token => acceptValue state.enclosing token
  | .firstKey, .endObject => some ⟨state.enclosing, .afterValue (.object [])⟩
  | .firstKey, token => acceptKey state.enclosing [] true token
  | .key fields readable, token =>
      acceptKey state.enclosing fields readable token
  | .colon fields readable key, .colon =>
      some ⟨.object fields readable key :: state.enclosing, .value⟩
  | .colon _ _ _, _ => none
  | .afterValue value, token => acceptAfter value state.enclosing token

def value? : State → Option Json
  | ⟨[], .afterValue value⟩ => some value
  | _ => none

end State

/-! ## Characters -/

/-- The part of a token that has been read, last character first. -/
inductive Begun where
  | nothing
  | word (letters : List Char)
  | quoted (body : List Char)
  | escape (body : List Char)

structure Reader where
  state : State
  begun : Begun

namespace Reader

def start : Reader := ⟨.start, .nothing⟩

/-- Takes a character with which a token begins, or a space. -/
def feedFresh (state : State) (char : Char) : Option Reader :=
  if isSpace char then some ⟨state, .nothing⟩
  else if char = '"' then some ⟨state, .quoted []⟩
  else match Token.punctuation? char with
    | some token => (state.accept token).map fun state => ⟨state, .nothing⟩
    | none => some ⟨state, .word [char]⟩

def endsWord (char : Char) : Bool :=
  isSpace char || char = '"' || (Token.punctuation? char).isSome

def feed (reader : Reader) (char : Char) : Option Reader :=
  match reader.begun with
  | .nothing => feedFresh reader.state char
  | .word letters =>
      if endsWord char then do
        feedFresh (← reader.state.accept (.word letters.reverse)) char
      else some { reader with begun := .word (char :: letters) }
  | .quoted body =>
      if char = '"' then
        (reader.state.accept (.quoted body.reverse)).map fun state =>
          ⟨state, .nothing⟩
      else if char = '\\' then
        some { reader with begun := .escape (char :: body) }
      else some { reader with begun := .quoted (char :: body) }
  | .escape body => some { reader with begun := .quoted (char :: body) }

def finish (reader : Reader) : Option Json :=
  match reader.begun with
  | .nothing => reader.state.value?
  | .word letters => do
      (← reader.state.accept (.word letters.reverse)).value?
  | .quoted _ | .escape _ => none

end Reader

def parse? (text : String) : Option Json := do
  (← text.toList.foldlM Reader.feed Reader.start).finish

end ApiManual.Json
