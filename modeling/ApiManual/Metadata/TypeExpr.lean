import ApiManual.TypeExpr
import ApiManual.Json.Writer

/-!
# Type expressions in metadata

A type expression is an object whose key `type` holds a tag for its form, or an
array: the tag first, then the fields of the form in order, of which the last
ones may be missing when they have a default.
-/

namespace ApiManual

inductive TypeForm where
  | keyword
  | reference
  | array
  | union
  | intersection
  | tuple
  | literal
  deriving DecidableEq, Repr

namespace TypeForm

/-- Every form, in the order that numbers them. -/
def all : List TypeForm :=
  [.keyword, .reference, .array, .union, .intersection, .tuple, .literal]

def name : TypeForm → String
  | .keyword => "keyword"
  | .reference => "reference"
  | .array => "array"
  | .union => "union"
  | .intersection => "intersection"
  | .tuple => "tuple"
  | .literal => "literal"

def fieldNames : TypeForm → List String
  | .keyword => ["name"]
  | .reference => ["name", "target", "type_arguments"]
  | .array => ["element"]
  | .union | .intersection | .tuple => ["types"]
  | .literal => ["text"]

/-- The form that a tag names. Where tags may be `indexed`, a form is also named
by its position in the list of all forms. -/
def ofTag? (indexed : Bool) : Json → Option TypeForm
  | .string text => all.find? (·.name = text)
  | tag => if indexed then tag.natural?.bind (all[·]?) else none

end TypeForm

namespace TypeExpr

/-- A value read in the two ways in which a field of a type expression can be
read: as a type expression and as a list of them. -/
structure Reading where
  value : Json
  expr : Option TypeExpr
  list : Option (List TypeExpr)

def Reading.text? (reading : Reading) : Option String := reading.value.text?

/-- The identifier that a value holds, unless it is `null`. -/
def Reading.target? (reading : Reading) : Option (Option EntityId) :=
  reading.value.nullable? fun value => value.text?.map EntityId.mk

def ofFields? (form : TypeForm) (fields : List (String × Reading)) :
    Option TypeExpr :=
  match form with
  | .keyword => return .keyword (← Json.required? fields "name" (·.text?))
  | .reference =>
      return .reference (← Json.required? fields "name" (·.text?))
        (← Json.field? fields "target" none (·.target?))
        (← Json.field? fields "type_arguments" [] (·.list))
  | .array => return .array (← Json.required? fields "element" (·.expr))
  | .union => return .union (← Json.required? fields "types" (·.list))
  | .intersection =>
      return .intersection (← Json.required? fields "types" (·.list))
  | .tuple => return .tuple (← Json.required? fields "types" (·.list))
  | .literal => return .literal (← Json.required? fields "text" (·.text?))

def ofObject? (indexed : Bool) (fields : List (String × Reading)) :
    Option TypeExpr := do
  let form ← Json.required? fields "type" (TypeForm.ofTag? indexed ·.value)
  ofFields? form fields

def ofArray? (indexed : Bool) : List Reading → Option TypeExpr
  | [] => none
  | tag :: items => do
      let form ← TypeForm.ofTag? indexed tag.value
      if items.length ≤ form.fieldNames.length then
        ofFields? form (form.fieldNames.zip items)
      else none

mutual

/-- Reads a value both as a type expression and as a list of them, each part of
it once. -/
def read : Json → Reading
  | .array items =>
      let readings := readItems items
      { value := .array items, expr := ofArray? true readings,
        list := readings.mapM (·.expr) }
  | .object fields =>
      { value := .object fields, expr := ofObject? true (readFields fields),
        list := none }
  | value => { value, expr := none, list := none }

def readItems : List Json → List Reading
  | [] => []
  | item :: rest => read item :: readItems rest

def readFields : List (String × Json) → List (String × Reading)
  | [] => []
  | (key, value) :: rest => (key, read value) :: readFields rest

end

/-- The type expression that a value denotes. The tags inside it may be numbers;
whether its own tag may be one is for the caller to say. -/
def ofJson? (indexed : Bool) : Json → Option TypeExpr
  | .array items => ofArray? indexed (readItems items)
  | .object fields => ofObject? indexed (readFields fields)
  | _ => none

/-- An object with a tag for its form. -/
def tagged (form : TypeForm) (fields : List (String × Json)) : Json :=
  .object (("type", .string form.name) :: fields)

mutual

def toJson : TypeExpr → Json
  | .keyword name => tagged .keyword [("name", .string name)]
  | .reference name target arguments =>
      tagged .reference
        [("name", .string name),
         ("target", Json.ofOption (fun id => .string id.text) target),
         ("type_arguments", .array (listToJson arguments))]
  | .array element => tagged .array [("element", element.toJson)]
  | .union types => tagged .union [("types", .array (listToJson types))]
  | .intersection types =>
      tagged .intersection [("types", .array (listToJson types))]
  | .tuple types => tagged .tuple [("types", .array (listToJson types))]
  | .literal text => tagged .literal [("text", .string text)]

def listToJson : List TypeExpr → List Json
  | [] => []
  | type :: rest => type.toJson :: listToJson rest

end

end TypeExpr

end ApiManual
