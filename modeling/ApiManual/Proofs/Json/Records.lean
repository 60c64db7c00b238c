import ApiManual.Proofs.Json.Layouts

/-!
# Records and their readers

What a reader of records gets back from values that were written for it: optional values, lists and
natural numbers, and fields under keys that occur once.  Cutting a value down to a number of levels
changes nothing when its containers nest no deeper.
-/

namespace ApiManual.Json

/-! ## Levels -/

mutual

/-- How many containers lie around the innermost part of a value. -/
def depth : Json → Nat
  | .array items => itemsDepth items + 1
  | .object fields => fieldsDepth fields + 1
  | _ => 0

/-- The depth of the deepest of the values. -/
def itemsDepth : List Json → Nat
  | [] => 0
  | item :: rest => max item.depth (itemsDepth rest)

/-- The depth of the deepest field value. -/
def fieldsDepth : List (String × Json) → Nat
  | [] => 0
  | (_, value) :: rest => max value.depth (fieldsDepth rest)

end

mutual

/-- A value that nests within the levels is left as it is. -/
theorem within_of_depth_le {levels : Nat} (value : Json) (fits : value.depth ≤ levels) :
    value.within levels = value := by
  cases value with
  | array items =>
      cases levels with
      | zero => cases fits
      | succ levels =>
          rw [within, itemsWithin_of_depth_le items (Nat.le_of_succ_le_succ fits)]
  | object fields =>
      cases levels with
      | zero => cases fits
      | succ levels =>
          rw [within, fieldsWithin_of_depth_le fields (Nat.le_of_succ_le_succ fits)]
  | null | bool _ | number _ | string _ | unreadable => cases levels <;> rfl

theorem itemsWithin_of_depth_le {levels : Nat} (items : List Json)
    (fits : itemsDepth items ≤ levels) : itemsWithin levels items = items := by
  cases items with
  | nil => rfl
  | cons item rest =>
      obtain ⟨first, others⟩ := Nat.max_le.mp fits
      rw [itemsWithin, within_of_depth_le item first, itemsWithin_of_depth_le rest others]

theorem fieldsWithin_of_depth_le {levels : Nat} (fields : List (String × Json))
    (fits : fieldsDepth fields ≤ levels) : fieldsWithin levels fields = fields := by
  cases fields with
  | nil => rfl
  | cons field rest =>
      obtain ⟨key, value⟩ := field
      obtain ⟨first, others⟩ := Nat.max_le.mp fits
      rw [fieldsWithin, within_of_depth_le value first, fieldsWithin_of_depth_le rest others]

end

/-! ## Writable values -/

theorem allWritable_eq_all (items : List Json) : allWritable items = items.all isWritable := by
  induction items with
  | nil => rfl
  | cons item rest ih => rw [allWritable, List.all_cons, ih]

theorem fieldsWritable_eq_all (fields : List (String × Json)) :
    fieldsWritable fields = fields.all (·.2.isWritable) := by
  induction fields with
  | nil => rfl
  | cons field rest ih =>
      obtain ⟨key, value⟩ := field
      rw [fieldsWritable, List.all_cons, ih]

@[simp] theorem isWritable_bool (value : Bool) : isWritable (.bool value) = true := rfl

@[simp] theorem isWritable_string (text : String) : isWritable (.string text) = true := rfl

@[simp] theorem isWritable_array (items : List Json) :
    isWritable (.array items) = items.all isWritable :=
  allWritable_eq_all items

@[simp] theorem isWritable_object (fields : List (String × Json)) :
    isWritable (.object fields) = fields.all (·.2.isWritable) :=
  fieldsWritable_eq_all fields

theorem isWritable_ofNat {value : Nat} (small : value < Nat.pow 2 53) :
    (ofNat value).isWritable = true :=
  isNumber_repr small

theorem isWritable_ofOption {α : Type} {write : α → Json} (each : ∀ value, (write value).isWritable)
    (value : Option α) : (ofOption write value).isWritable = true := by
  cases value with
  | none => rfl
  | some value => exact each value

theorem isWritable_ofList {α : Type} {write : α → Json} (each : ∀ value, (write value).isWritable)
    (values : List α) : (ofList write values).isWritable = true := by
  rw [ofList, isWritable_array, List.all_map, List.all_eq_true]
  exact fun value _ => each value

mutual

/-- What can be written and read back has no unreadable part. -/
theorem isReadable_of_isWritable (value : Json) (writable : value.isWritable = true) :
    value.isReadable = true := by
  cases value with
  | array items => exact allReadable_of_allWritable items writable
  | object fields => exact fieldsReadable_of_fieldsWritable fields writable
  | unreadable => cases writable
  | null | bool _ | number _ | string _ => rfl

theorem allReadable_of_allWritable (items : List Json) (writable : allWritable items = true) :
    allReadable items = true := by
  cases items with
  | nil => rfl
  | cons item rest =>
      rw [allWritable, Bool.and_eq_true] at writable
      rw [allReadable, isReadable_of_isWritable item writable.1,
        allReadable_of_allWritable rest writable.2, Bool.and_self]

theorem fieldsReadable_of_fieldsWritable (fields : List (String × Json))
    (writable : fieldsWritable fields = true) : fieldsReadable fields = true := by
  cases fields with
  | nil => rfl
  | cons field rest =>
      obtain ⟨key, value⟩ := field
      rw [fieldsWritable, Bool.and_eq_true] at writable
      rw [fieldsReadable, isReadable_of_isWritable value writable.1,
        fieldsReadable_of_fieldsWritable rest writable.2, Bool.and_self]

end

/-! ## Readers -/

@[simp] theorem text?_string (text : String) : text? (.string text) = some text := rfl

@[simp] theorem flag?_bool (value : Bool) : flag? (.bool value) = some value := rfl

/-- A natural number is read from its digits. -/
theorem natural?_ofNat (value : Nat) : (ofNat value).natural? = some value := by
  have digits : (Nat.toDigits 10 value).all Char.isDigit = true :=
    List.all_eq_true.mpr fun char => Nat.isDigit_of_mem_toDigits (by decide) (by decide)
  simp only [ofNat, natural?, Nat.toList_repr]
  rw [if_pos ⟨Nat.toDigits_ne_nil, digits⟩, Nat.ofDigitChars_toDigits (by decide) (by decide)]

section

variable {α : Type} {read : Json → Option α} {write : α → Json}

theorem mapM_map_write (back : ∀ value, read (write value) = some value) (values : List α) :
    (values.map write).mapM read = some values := by
  induction values with
  | nil => rfl
  | cons value rest ih =>
      rw [List.map_cons, List.mapM_cons, back, ih]
      rfl

/-- A list is read from the array written for it. -/
theorem items?_ofList (back : ∀ value, read (write value) = some value) (values : List α) :
    items? read (ofList write values) = some values :=
  mapM_map_write back values

/-- An optional value is read back when none is written as `null`. -/
theorem nullable?_ofOption (write : α → Json) (back : ∀ value, read (write value) = some value)
    (present : ∀ value, write value ≠ .null) (value : Option α) :
    nullable? read (ofOption write value) = some value := by
  cases value with
  | none => rfl
  | some value =>
      rw [ofOption, nullable?, back]
      · rfl
      · exact present value

end

section

variable {α : Type} {key : String} {value : α} {rest : List (String × α)}

theorem once?_cons (single : ∀ field ∈ rest, field.1 ≠ key) :
    once? key ((key, value) :: rest) = some (some value) := by
  have absent : rest.any (·.1 = key) = false := by simpa using single
  rw [once?, if_pos rfl, absent]
  rfl

theorem once?_of_forall_ne (absent : ∀ field ∈ rest, field.1 ≠ key) :
    once? key rest = some none := by
  induction rest with
  | nil => rfl
  | cons field later ih =>
      rw [List.forall_mem_cons] at absent
      exact (if_neg absent.1).trans (ih absent.2)

/-- Fields under other keys may follow. -/
theorem once?_append {fields : List (String × α)} (apart : ∀ field ∈ rest, field.1 ≠ key) :
    once? key (fields ++ rest) = once? key fields := by
  have absent : rest.any (·.1 = key) = false := by simpa using apart
  induction fields with
  | nil => exact once?_of_forall_ne apart
  | cons field later ih =>
      obtain ⟨candidate, value⟩ := field
      rw [List.cons_append, once?, once?, ih, List.any_append, absent, Bool.or_false]

end

end ApiManual.Json
