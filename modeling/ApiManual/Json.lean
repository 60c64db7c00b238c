/-!
# JSON values

A number keeps the text it was written with, since some readers tell `1` from
`1.0`.  An object keeps its fields in order, and a key may occur more than once:
it is for the reader of the object to say whether that is an error.
-/

namespace ApiManual

/-- A JSON value. A part that is grammatical but denotes no value (a text with
an unpaired surrogate, a number beyond every double, a container nested too
deeply) is `unreadable`: whoever reads it fails, whoever skips it does not
notice. -/
inductive Json where
  | null
  | bool (value : Bool)
  | number (text : String)
  | string (text : String)
  | array (items : List Json)
  | object (fields : List (String × Json))
  | unreadable
  deriving Repr, Inhabited

namespace Json

mutual

/-- Whether no part of a value is unreadable. -/
def isReadable : Json → Bool
  | .array items => allReadable items
  | .object fields => fieldsReadable fields
  | .unreadable => false
  | _ => true

def allReadable : List Json → Bool
  | [] => true
  | item :: rest => item.isReadable && allReadable rest

def fieldsReadable : List (String × Json) → Bool
  | [] => true
  | (_, value) :: rest => value.isReadable && fieldsReadable rest

end

mutual

/-- A value whose containers nest at most `levels` deep: those that lie deeper
become unreadable. The value itself is the first level. -/
def within : (levels : Nat) → Json → Json
  | 0, .array _ | 0, .object _ => .unreadable
  | levels + 1, .array items => .array (itemsWithin levels items)
  | levels + 1, .object fields => .object (fieldsWithin levels fields)
  | _, value => value

def itemsWithin : (levels : Nat) → List Json → List Json
  | _, [] => []
  | levels, item :: rest => item.within levels :: itemsWithin levels rest

def fieldsWithin : (levels : Nat) → List (String × Json) → List (String × Json)
  | _, [] => []
  | levels, (key, value) :: rest =>
      (key, value.within levels) :: fieldsWithin levels rest

end

/-- The value under a key that may occur at most once: `none` when the key is
repeated, and `some none` when it is missing. -/
def once? {α : Type} (key : String) : List (String × α) → Option (Option α)
  | [] => some none
  | (candidate, value) :: rest =>
      if candidate = key then
        if rest.any (·.1 = key) then none else some (some value)
      else once? key rest

/-- The fields of a record. An object holds them by name; an array holds them in
the order of `names`, the last ones possibly missing. -/
def record? (names : List String) : Json → Option (List (String × Json))
  | .object fields => some fields
  | .array items =>
      if items.length ≤ names.length then some (names.zip items) else none
  | _ => none

def text? : Json → Option String
  | .string text => some text
  | _ => none

def flag? : Json → Option Bool
  | .bool value => some value
  | _ => none

/-- The natural number that a number denotes when it is written with digits
only. -/
def natural? : Json → Option Nat
  | .number text =>
      if text.toList ≠ [] ∧ text.toList.all Char.isDigit then
        some (Nat.ofDigitChars 10 text.toList 0)
      else none
  | _ => none

def items? {α : Type} (read : Json → Option α) : Json → Option (List α)
  | .array items => items.mapM read
  | _ => none

def nullable? {α : Type} (read : Json → Option α) : Json → Option (Option α)
  | .null => some none
  | value => (read value).map some

/-- A field that has a default when it is missing. -/
def field? {α β : Type} (fields : List (String × α)) (key : String)
    (default : β) (read : α → Option β) : Option β := do
  match ← once? key fields with
  | none => some default
  | some value => read value

/-- A field that must be present. -/
def required? {α β : Type} (fields : List (String × α)) (key : String)
    (read : α → Option β) : Option β := do
  read (← (← once? key fields))

end Json

end ApiManual
