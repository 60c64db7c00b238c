import ApiManual.Metadata.TypeExpr
import ApiManual.Proofs.Json.Records

/-!
# Type expressions read back

A type expression is read back from the object written for it, whatever its form and however deep
its parts nest.
-/

namespace ApiManual

open Json

theorem TypeForm.ofTag?_name (indexed : Bool) (form : TypeForm) :
    ofTag? indexed (.string form.name) = some form := by
  cases form <;> rfl

namespace TypeExpr

theorem read_expr (value : Json) : (read value).expr = ofJson? true value := by
  cases value <;> rfl

theorem read_value (value : Json) : (read value).value = value := by
  cases value <;> rfl

theorem read_list (items : List Json) :
    (read (.array items)).list = (readItems items).mapM (·.expr) := rfl

/-- An object is read by the form that its tag names. -/
theorem ofJson?_tagged (indexed : Bool) (form : TypeForm) {fields : List (String × Json)}
    (untagged : ∀ field ∈ readFields fields, field.1 ≠ "type") :
    ofJson? indexed (tagged form fields) =
      ofFields? form (("type", read (.string form.name)) :: readFields fields) := by
  show ofObject? indexed (_ :: readFields fields) = _
  rw [ofObject?, required?, once?_cons untagged]
  show (TypeForm.ofTag? indexed (.string form.name)).bind _ = _
  rw [TypeForm.ofTag?_name]
  rfl

mutual

/-- A type expression is read back from the object written for it. -/
theorem ofJson?_toJson (indexed : Bool) (type : TypeExpr) :
    ofJson? indexed type.toJson = some type := by
  cases type with
  | keyword name =>
      rw [toJson, ofJson?_tagged indexed .keyword (by simp [readFields])]
      rfl
  | reference name target arguments =>
      rw [toJson, ofJson?_tagged indexed .reference (by simp [readFields])]
      have list := mapM_readItems_listToJson arguments
      have id : nullable? (fun value => value.text?.map EntityId.mk)
          (ofOption (fun id => .string id.text) target) = some target :=
        nullable?_ofOption (fun id => .string id.text) (fun _ => rfl) (by nofun) target
      simp [ofFields?, readFields, required?, field?, once?, read_list, list, Reading.text?,
        Reading.target?, read_value, id]
  | array element =>
      rw [toJson, ofJson?_tagged indexed .array (by simp [readFields])]
      simp [ofFields?, readFields, required?, once?, read_expr, ofJson?_toJson true element]
  | union types =>
      rw [toJson, ofJson?_tagged indexed .union (by simp [readFields])]
      simp [ofFields?, readFields, required?, once?, read_list, mapM_readItems_listToJson types]
  | intersection types =>
      rw [toJson, ofJson?_tagged indexed .intersection (by simp [readFields])]
      simp [ofFields?, readFields, required?, once?, read_list, mapM_readItems_listToJson types]
  | tuple types =>
      rw [toJson, ofJson?_tagged indexed .tuple (by simp [readFields])]
      simp [ofFields?, readFields, required?, once?, read_list, mapM_readItems_listToJson types]
  | literal text =>
      rw [toJson, ofJson?_tagged indexed .literal (by simp [readFields])]
      rfl

theorem mapM_readItems_listToJson (types : List TypeExpr) :
    (readItems (listToJson types)).mapM (·.expr) = some types := by
  cases types with
  | nil => rfl
  | cons type rest =>
      rw [listToJson, readItems, List.mapM_cons, read_expr, ofJson?_toJson true type,
        mapM_readItems_listToJson rest]
      rfl

end

mutual

/-- What is written for a type expression can be read back. -/
theorem isWritable_toJson (type : TypeExpr) : type.toJson.isWritable = true := by
  cases type with
  | keyword name => simp [toJson, tagged]
  | reference name target arguments =>
      have id : (ofOption (fun id => .string id.text) target).isWritable = true :=
        isWritable_ofOption (fun _ => rfl) target
      simpa [toJson, tagged, id] using all_isWritable_listToJson arguments
  | array element => simp [toJson, tagged, isWritable_toJson element]
  | union types => simpa [toJson, tagged] using all_isWritable_listToJson types
  | intersection types => simpa [toJson, tagged] using all_isWritable_listToJson types
  | tuple types => simpa [toJson, tagged] using all_isWritable_listToJson types
  | literal text => simp [toJson, tagged]

theorem all_isWritable_listToJson (types : List TypeExpr) :
    (listToJson types).all isWritable = true := by
  cases types with
  | nil => rfl
  | cons type rest =>
      rw [listToJson, List.all_cons, isWritable_toJson type, all_isWritable_listToJson rest,
        Bool.and_self]

end

theorem toJson_ne_null (type : TypeExpr) : type.toJson ≠ .null := by
  cases type <;> nofun

end TypeExpr

end ApiManual
