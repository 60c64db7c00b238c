import ApiManual.TypeExpr.Text

/-!
# Styles of type texts

Code and prose hold the same text of a type, but for two things: what stands for a reference,
and the brackets around type arguments.  With these given, one recursion writes a type, and it
does not touch the references that have been used so far.
-/

namespace ApiManual.TypeExpr

/-- What a reference without its arguments is written as, and the brackets around type
arguments. -/
structure Style where
  head : String → Option EntityId → String
  opening : String
  closing : String

namespace Style

/-- References are written as their names. -/
def code (opening closing : String) : Style where
  head := fun name _ => name
  opening
  closing

/-- References are links where their targets are known. -/
def prose : Style where
  head
    | name, none => name
    | name, some id => Markdown.link name id
  opening := "&lt;"
  closing := "&gt;"

end Style

mutual

/-- A type expression in a style. -/
def textIn (style : Style) : TypeExpr → String
  | .keyword name => name
  | .reference name target arguments =>
      style.head name target ++
        argumentsText style.opening style.closing (textsIn style arguments)
  | .array element => arrayText element (element.textIn style)
  | .union types => Text.joined " | " (textsIn style types)
  | .intersection types => Text.joined " & " (textsIn style types)
  | .tuple types => "[" ++ Text.joined ", " (textsIn style types) ++ "]"
  | .literal text => text

/-- Each type expression in a style. -/
def textsIn (style : Style) : List TypeExpr → List String
  | [] => []
  | type :: rest => type.textIn style :: textsIn style rest

end

mutual

theorem plain_eq_textIn (type : TypeExpr) : type.plain = type.textIn (.code "<" ">") := by
  cases type with
  | keyword name => rfl
  | literal text => rfl
  | reference name target arguments =>
      rw [plain, textIn, plainAll_eq_textsIn arguments]
      rfl
  | array element => rw [plain, textIn, plain_eq_textIn element]
  | union types => rw [plain, textIn, plainAll_eq_textsIn types]
  | intersection types => rw [plain, textIn, plainAll_eq_textsIn types]
  | tuple types => rw [plain, textIn, plainAll_eq_textsIn types]

theorem plainAll_eq_textsIn (types : List TypeExpr) :
    plainAll types = textsIn (.code "<" ">") types := by
  cases types with
  | nil => rfl
  | cons type rest => rw [plainAll, textsIn, plain_eq_textIn type, plainAll_eq_textsIn rest]

end

mutual

/-- What is recorded while a type is written in prose does not depend on the text, and the text
does not depend on what was recorded before. -/
theorem text_linked (type : TypeExpr) (used : References) :
    (type.linked used).1 = type.textIn .prose := by
  cases type with
  | keyword name => rfl
  | literal text => rfl
  | reference name target arguments =>
      rw [textIn]
      cases target with
      | none => rw [← texts_linkedAll arguments used]; rfl
      | some id => rw [← texts_linkedAll arguments (used.insert id)]; rfl
  | array element => rw [textIn, ← text_linked element used]; rfl
  | union types => rw [textIn, ← texts_linkedAll types used]; rfl
  | intersection types => rw [textIn, ← texts_linkedAll types used]; rfl
  | tuple types => rw [textIn, ← texts_linkedAll types used]; rfl

theorem texts_linkedAll (types : List TypeExpr) (used : References) :
    (linkedAll types used).1 = textsIn .prose types := by
  cases types with
  | nil => rfl
  | cons type rest =>
      rw [textsIn, ← text_linked type used, ← texts_linkedAll rest (type.linked used).2]
      rfl

end

end ApiManual.TypeExpr
