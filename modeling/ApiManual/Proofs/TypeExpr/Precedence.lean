import ApiManual.Proofs.TypeExpr.Reader

/-!
# Types that are read back

Parentheses are written around the element of an array when it is a union or an intersection, and
nowhere else.  A union that stands directly in an intersection is therefore read otherwise: the
types next to it go with its first and its last alternative.  This is the only thing that is
lost.  Any other type that is made of names, arrays, tuples, unions and intersections is read
back from its text, with nested unions and nested intersections flattened.
-/

namespace ApiManual.TypeExpr

open Reader (Content IsName Reads sum together)

/-! ## Types and what they should be read as -/

mutual

/-- Types that are made of names, arrays, tuples, and unions and intersections of several
types. -/
def Readable : TypeExpr → Prop
  | .keyword name => IsName name
  | .reference name _ arguments => IsName name ∧ AllReadable arguments
  | .array element => element.Readable
  | .union types => 2 ≤ types.length ∧ AllReadable types
  | .intersection types => 2 ≤ types.length ∧ AllReadable types
  | .tuple types => AllReadable types
  | .literal _ => False

/-- The same for each of several types. -/
def AllReadable : List TypeExpr → Prop
  | [] => True
  | type :: rest => type.Readable ∧ AllReadable rest

end

/-- Whether a type is a union. -/
def isUnion : TypeExpr → Bool
  | .union _ => true
  | _ => false

/-- The types that a type is a union of. -/
def unionMembers : TypeExpr → List TypeExpr
  | .union types => types
  | type => [type]

/-- The types that a type is an intersection of. -/
def intersectionMembers : TypeExpr → List TypeExpr
  | .intersection types => types
  | type => [type]

mutual

/-- A type in which no union stands directly in a union and no intersection directly in an
intersection. A keyword counts as a name, and targets are left out. -/
def flattened : TypeExpr → TypeExpr
  | .keyword name => .reference name none []
  | .reference name _ arguments => .reference name none (allFlattened arguments)
  | .array element => .array element.flattened
  | .union types => .union ((allFlattened types).flatMap unionMembers)
  | .intersection types => .intersection ((allFlattened types).flatMap intersectionMembers)
  | .tuple types => .tuple (allFlattened types)
  | .literal text => .literal text

/-- The same for each of several types. -/
def allFlattened : List TypeExpr → List TypeExpr
  | [] => []
  | type :: rest => type.flattened :: allFlattened rest

end

mutual

/-- No union stands directly in an intersection. -/
def Separated : TypeExpr → Prop
  | .keyword _ => True
  | .reference _ _ arguments => AllSeparated arguments
  | .array element => element.Separated
  | .union types => AllSeparated types
  | .intersection types => (∀ type ∈ types, type.isUnion = false) ∧ AllSeparated types
  | .tuple types => AllSeparated types
  | .literal _ => True

/-- The same for each of several types. -/
def AllSeparated : List TypeExpr → Prop
  | [] => True
  | type :: rest => type.Separated ∧ AllSeparated rest

end

theorem allSeparated_iff {types : List TypeExpr} :
    AllSeparated types ↔ ∀ type ∈ types, type.Separated := by
  induction types with
  | nil => simp [AllSeparated]
  | cons type rest ih => simp [AllSeparated, ih]

/-! ## What a text says -/

mutual

/-- What the text of a type says. -/
def content : TypeExpr → Content
  | .keyword name => .single (.reference name none [])
  | .reference name _ arguments =>
      .single (.reference name none ((contents arguments).map (sum ·.all)))
  | .array element => .single (.array (sum element.content.all))
  | .union types =>
      match contents types with
      | [] => .single (.union [])
      | first :: later => .joined .or first later
  | .intersection types =>
      match contents types with
      | [] => .single (.intersection [])
      | first :: later => .joined .and first later
  | .tuple types => .single (.tuple ((contents types).map (sum ·.all)))
  | .literal text => .single (.literal text)

/-- The same for each of several types. -/
def contents : List TypeExpr → List Content
  | [] => []
  | type :: rest => type.content :: contents rest

end

/-- A type that is neither a union nor an intersection says one type. -/
theorem content_eq_single {type : TypeExpr} (atom : type.isJoined = false) :
    type.content = .single (sum type.content.all) := by
  cases type with
  | union types => cases atom
  | intersection types => cases atom
  | keyword name => rw [content]; rfl
  | reference name target arguments => rw [content]; rfl
  | array element => rw [content]; rfl
  | tuple types => rw [content]; rfl
  | literal text => rw [content]; rfl

theorem reads_arrayText {element : TypeExpr} {text : String}
    (reads : Reads text element.content) :
    Reads (arrayText element text) (.single (.array (sum element.content.all))) := by
  have ends : "(" ++ text ++ ")[]" = "(" ++ text ++ ")" ++ "[]" := by
    rw [@String.append_assoc _ ")" "[]"]
    rfl
  rw [arrayText]
  split
  · rw [ends]
    exact reads.group.array
  · next atom =>
      rw [content_eq_single (eq_false_of_ne_true atom)] at reads
      exact reads.array

mutual

/-- The text of a type is read as what it says. -/
theorem reads_plain (type : TypeExpr) (readable : type.Readable) :
    Reads type.plain type.content := by
  cases type with
  | keyword name => exact .of_isName readable
  | literal text => exact readable.elim
  | reference name target arguments =>
      obtain ⟨named, inside⟩ := readable
      have each := reads_plainAll arguments inside
      rw [plain, content]
      cases arguments with
      | nil =>
          have bare : name ++ argumentsText "<" ">" (plainAll []) = name := String.append_empty
          rw [bare]
          exact .of_isName named
      | cons first later =>
          cases each with
          | cons firstReads laterRead => exact .arguments named firstReads laterRead
  | array element => exact reads_arrayText (reads_plain element readable)
  | union types =>
      have each := reads_plainAll types readable.2
      rw [plain, content]
      cases types with
      | nil => exact absurd readable.1 (by decide)
      | cons first later =>
          cases each with
          | cons firstReads laterRead => exact .joined .bar firstReads laterRead
  | intersection types =>
      have each := reads_plainAll types readable.2
      rw [plain, content]
      cases types with
      | nil => exact absurd readable.1 (by decide)
      | cons first later =>
          cases each with
          | cons firstReads laterRead => exact .joined .ampersand firstReads laterRead
  | tuple types =>
      have each := reads_plainAll types readable
      rw [plain, content]
      cases types with
      | nil => exact .emptyTuple
      | cons first later =>
          cases each with
          | cons firstReads laterRead => exact .tuple firstReads laterRead

theorem reads_plainAll (types : List TypeExpr) (readable : AllReadable types) :
    List.Forall₂ Reads (plainAll types) (contents types) := by
  cases types with
  | nil => exact .nil
  | cons type rest => exact .cons (reads_plain type readable.1) (reads_plainAll rest readable.2)

end

/-! ## What is read of a type without unions in intersections -/

theorem together_of_two_le {combine : List TypeExpr → TypeExpr} {types : List TypeExpr}
    (several : 2 ≤ types.length) : together combine types = combine types := by
  match types with
  | _ :: _ :: _ => rfl

/-- A type is what its alternatives and their factors are together. -/
structure Regular (type : TypeExpr) : Prop where
  alternatives : together .union type.unionMembers = type
  factors : ∀ alternative ∈ type.unionMembers,
    together .intersection alternative.intersectionMembers = alternative
  nonempty : type.unionMembers ≠ [] ∧ type.intersectionMembers ≠ []

theorem Regular.sum_eq {type : TypeExpr} (regular : type.Regular) :
    sum (type.unionMembers.map intersectionMembers) = type := by
  have each : type.unionMembers.map (together .intersection ∘ intersectionMembers) =
      type.unionMembers.map id := List.map_congr_left regular.factors
  rw [sum, List.map_map, each, List.map_id, regular.alternatives]

theorem length_le_flatMap {types : List TypeExpr} {members : TypeExpr → List TypeExpr}
    (nonempty : ∀ type ∈ types, members type ≠ []) :
    types.length ≤ (types.flatMap members).length := by
  induction types with
  | nil => exact Nat.le_refl 0
  | cons type rest ih =>
      rw [List.forall_mem_cons] at nonempty
      have some := List.length_pos_iff.mpr nonempty.1
      have later := ih nonempty.2
      rw [List.flatMap_cons, List.length_append, List.length_cons]
      omega

theorem length_allFlattened (types : List TypeExpr) :
    (allFlattened types).length = types.length := by
  induction types with
  | nil => rfl
  | cons type rest ih => rw [allFlattened, List.length_cons, ih, List.length_cons]

/-- A type that is neither a union nor an intersection is its only alternative and factor. -/
theorem regular_of_atom {type : TypeExpr} (atom : type.isJoined = false) : type.Regular := by
  cases type with
  | union types => cases atom
  | intersection types => cases atom
  | _ => exact ⟨rfl, by simp [unionMembers, intersectionMembers, together],
      by simp [unionMembers, intersectionMembers]⟩

theorem regular_union {types : List TypeExpr} (several : 2 ≤ types.length)
    (each : ∀ type ∈ types, type.Regular) : (union (types.flatMap unionMembers)).Regular := by
  have longer := length_le_flatMap fun type member => (each type member).nonempty.1
  have some := Nat.le_trans several longer
  refine ⟨together_of_two_le some, ?_, ?_, List.cons_ne_nil _ _⟩
  · intro alternative member
    obtain ⟨other, inTypes, inOther⟩ := List.mem_flatMap.mp member
    exact (each other inTypes).factors alternative inOther
  · exact List.length_pos_iff.mp (Nat.lt_of_lt_of_le (by decide) some)

theorem regular_intersection {types : List TypeExpr} (several : 2 ≤ types.length)
    (each : ∀ type ∈ types, type.Regular) :
    (intersection (types.flatMap intersectionMembers)).Regular := by
  have longer := length_le_flatMap fun type member => (each type member).nonempty.2
  have some := Nat.le_trans several longer
  refine ⟨rfl, ?_, List.cons_ne_nil _ _, ?_⟩
  · intro alternative member
    rw [List.mem_singleton.mp member]
    exact together_of_two_le some
  · exact List.length_pos_iff.mp (Nat.lt_of_lt_of_le (by decide) some)

mutual

theorem regular_flattened (type : TypeExpr) (readable : type.Readable) :
    type.flattened.Regular := by
  cases type with
  | keyword name => exact regular_of_atom rfl
  | literal text => exact readable.elim
  | reference name target arguments => exact regular_of_atom rfl
  | array element => exact regular_of_atom rfl
  | tuple types => exact regular_of_atom rfl
  | union types =>
      obtain ⟨several, inside⟩ := readable
      rw [← length_allFlattened] at several
      exact regular_union several (regular_allFlattened types inside)
  | intersection types =>
      obtain ⟨several, inside⟩ := readable
      rw [← length_allFlattened] at several
      exact regular_intersection several (regular_allFlattened types inside)

theorem regular_allFlattened (types : List TypeExpr) (readable : AllReadable types) :
    ∀ type ∈ allFlattened types, type.Regular := by
  cases types with
  | nil => exact List.forall_mem_nil _
  | cons type rest =>
      rw [allFlattened, List.forall_mem_cons]
      exact ⟨regular_flattened type readable.1, regular_allFlattened rest readable.2⟩

end

theorem all_joined_or (first : Content) (later : List Content) :
    (Content.joined .or first later).all = (first :: later).flatMap (·.all) := by
  induction later generalizing first with
  | nil => simp [Content.joined]
  | cons second later ih =>
      have step : ∀ other : Content, (first.or other).all = first.all ++ other.all := by
        intro other
        simp [Content.or, Content.all]
      rw [Content.joined, step, ih, @List.flatMap_cons _ _ first]

/-- An ampersand joins the last alternative before it and the first one behind it. -/
theorem all_and (first second : Content) : ∃ next rest, second.all = next :: rest ∧
    (first.and second).all =
      first.alternatives ++ (first.factors ++ first.operand :: next) :: rest := by
  obtain ⟨alternatives, factors, operand⟩ := second
  cases alternatives with
  | nil => exact ⟨factors ++ [operand], [], rfl, by simp [Content.and, Content.all]⟩
  | cons next later =>
      exact ⟨next, later ++ [factors ++ [operand]], rfl, by simp [Content.and, Content.all]⟩

/-- Texts of one alternative each, with ampersands between them, are one alternative. -/
theorem all_joined_and {first : Content} {later : List Content} {part : List TypeExpr}
    {parts : List (List TypeExpr)} (one : first.all = [part])
    (each : List.Forall₂ (fun content part => content.all = [part]) later parts) :
    (Content.joined .and first later).all = [(part :: parts).flatten] := by
  induction each generalizing first part with
  | nil => simpa [Content.joined] using one
  | @cons second next later parts secondOne _ ih =>
      have front : first.alternatives = [] ∧ first.factors ++ [first.operand] = part := by
        simpa [Content.all, List.append_eq_singleton_iff] using one
      obtain ⟨joint, rest, restEq, whole⟩ := all_and first (.joined .and second later)
      rw [ih secondOne, List.cons.injEq] at restEq
      rw [Content.joined, whole, front.1, ← front.2, ← restEq.1, ← restEq.2]
      simp

@[simp] theorem isUnion_flattened (type : TypeExpr) : type.flattened.isUnion = type.isUnion := by
  cases type <;> rfl

theorem isUnion_of_mem_allFlattened {types : List TypeExpr}
    (single : ∀ type ∈ types, type.isUnion = false) :
    ∀ type ∈ allFlattened types, type.isUnion = false := by
  induction types with
  | nil => exact List.forall_mem_nil _
  | cons type rest ih =>
      rw [List.forall_mem_cons] at single
      rw [allFlattened, List.forall_mem_cons, isUnion_flattened]
      exact ⟨single.1, ih single.2⟩

/-- A text says the alternatives of a type, each with its factors. -/
def Says (content : Content) (type : TypeExpr) : Prop :=
  content.all = type.unionMembers.map intersectionMembers

section

variable {contents : List Content} {types : List TypeExpr}

theorem map_sum_of_said (each : List.Forall₂ Says contents types)
    (regular : ∀ type ∈ types, type.Regular) : contents.map (sum ·.all) = types := by
  induction each with
  | nil => rfl
  | cons said _ ih =>
      rw [List.forall_mem_cons] at regular
      rw [List.map_cons, said, regular.1.sum_eq, ih regular.2]

theorem flatMap_all_of_said (each : List.Forall₂ Says contents types) :
    contents.flatMap (·.all) = (types.flatMap unionMembers).map intersectionMembers := by
  induction each with
  | nil => rfl
  | cons said _ ih => rw [List.flatMap_cons, List.flatMap_cons, List.map_append, said, ih]

theorem forall₂_all_of_said (each : List.Forall₂ Says contents types)
    (single : ∀ type ∈ types, type.isUnion = false) :
    List.Forall₂ (fun content part => content.all = [part]) contents
      (types.map intersectionMembers) := by
  induction each with
  | nil => exact .nil
  | @cons content type _ _ said _ ih =>
      rw [List.forall_mem_cons] at single
      have alone : type.unionMembers = [type] := by
        cases type with
        | union types => cases single.1
        | _ => rfl
      refine .cons ?_ (ih single.2)
      rw [said, alone]
      rfl

end

mutual

/-- Without unions in intersections, the text of a type says the type. -/
theorem says_content (type : TypeExpr) (readable : type.Readable) (separated : type.Separated) :
    Says type.content type.flattened := by
  cases type with
  | keyword name => rfl
  | literal text => exact readable.elim
  | reference name target arguments =>
      have each := says_contents arguments readable.2 separated
      rw [content, map_sum_of_said each (regular_allFlattened arguments readable.2)]
      rfl
  | array element =>
      rw [content, says_content element readable separated,
        (regular_flattened element readable).sum_eq]
      rfl
  | tuple types =>
      have each := says_contents types readable separated
      rw [content, map_sum_of_said each (regular_allFlattened types readable)]
      rfl
  | union types =>
      have each := says_contents types readable.2 separated
      cases types with
      | nil => exact absurd readable.1 (by decide)
      | cons first later =>
          exact (all_joined_or _ _).trans (flatMap_all_of_said each)
  | intersection types =>
      have each := says_contents types readable.2 separated.2
      have parts := forall₂_all_of_said each (isUnion_of_mem_allFlattened separated.1)
      cases types with
      | nil => exact absurd readable.1 (by decide)
      | cons first later =>
          cases parts with
          | cons one others => exact all_joined_and one others

theorem says_contents (types : List TypeExpr) (readable : AllReadable types)
    (separated : AllSeparated types) :
    List.Forall₂ Says (contents types) (allFlattened types) := by
  cases types with
  | nil => exact .nil
  | cons type rest =>
      exact .cons (says_content type readable.1 separated.1)
        (says_contents rest readable.2 separated.2)

end

/-! ## What is read has no unions in intersections -/

theorem mem_allFlattened {types : List TypeExpr} {type : TypeExpr} (member : type ∈ types) :
    type.flattened ∈ allFlattened types := by
  induction types with
  | nil => cases member
  | cons first rest ih =>
      rw [allFlattened]
      cases member with
      | head => exact List.mem_cons_self
      | tail _ later => exact List.mem_cons_of_mem _ (ih later)

/-- All factors of a text are of a kind. -/
def Factors (kind : TypeExpr → Prop) (content : Content) : Prop :=
  ∀ factors ∈ content.all, ∀ factor ∈ factors, kind factor

theorem Factors.single {kind : TypeExpr → Prop} {type : TypeExpr} (held : kind type) :
    Factors kind (.single type) := by
  simpa [Factors, Content.single, Content.all] using held

theorem Factors.or {kind : TypeExpr → Prop} {first second : Content} (left : Factors kind first)
    (right : Factors kind second) : Factors kind (first.or second) := by
  have all : (first.or second).all = first.all ++ second.all := by
    simp [Content.or, Content.all]
  intro factors member
  rw [all, List.mem_append] at member
  exact member.elim (left factors) (right factors)

theorem Factors.and {kind : TypeExpr → Prop} {first second : Content} (left : Factors kind first)
    (right : Factors kind second) : Factors kind (first.and second) := by
  obtain ⟨next, rest, secondEq, whole⟩ := all_and first second
  have last : first.factors ++ [first.operand] ∈ first.all :=
    List.mem_append_right _ (List.mem_singleton_self _)
  rw [Factors, secondEq, List.forall_mem_cons] at right
  rw [Factors, whole, List.forall_mem_append, List.forall_mem_cons]
  refine ⟨fun factors member => left factors (List.mem_append_left _ member), ?_, right.2⟩
  intro factor member
  rw [List.append_cons, List.mem_append] at member
  exact member.elim (left _ last factor) (right.1 factor)

theorem Factors.joined {kind : TypeExpr → Prop} {combine : Content → Content → Content}
    (pair : ∀ {first second}, Factors kind first → Factors kind second →
      Factors kind (combine first second))
    {first : Content} {later : List Content}
    (each : ∀ content ∈ first :: later, Factors kind content) :
    Factors kind (.joined combine first later) := by
  induction later generalizing first with
  | nil => exact each first List.mem_cons_self
  | cons second later ih =>
      rw [List.forall_mem_cons] at each
      exact pair each.1 (ih each.2)

/-- A type that stands alone, with what it holds separated. -/
def IsFactor (type : TypeExpr) : Prop := type.isJoined = false ∧ type.Separated

theorem separated_together_intersection {types : List TypeExpr}
    (factors : ∀ type ∈ types, IsFactor type) :
    (together .intersection types).Separated := by
  have inside : (intersection types).Separated := by
    refine ⟨fun type member => ?_, allSeparated_iff.mpr fun type member => (factors type member).2⟩
    have single := (factors type member).1
    cases type with
    | union types => cases single
    | _ => rfl
  match types with
  | [] => exact inside
  | [type] => exact (factors type List.mem_cons_self).2
  | _ :: _ :: _ => exact inside

theorem separated_together_union {types : List TypeExpr}
    (each : ∀ type ∈ types, type.Separated) : (together .union types).Separated := by
  match types with
  | [] => trivial
  | [type] => exact each type List.mem_cons_self
  | _ :: _ :: _ => exact allSeparated_iff.mpr each

theorem separated_sum {content : Content} (factors : Factors IsFactor content) :
    (sum content.all).Separated := by
  refine separated_together_union fun type member => ?_
  obtain ⟨alternative, held, rfl⟩ := List.mem_map.mp member
  exact separated_together_intersection (factors alternative held)

theorem separated_sums {contents : List Content}
    (each : ∀ content ∈ contents, Factors IsFactor content) :
    AllSeparated (contents.map (sum ·.all)) := by
  refine allSeparated_iff.mpr fun type member => ?_
  obtain ⟨content, held, rfl⟩ := List.mem_map.mp member
  exact separated_sum (each content held)

mutual

theorem factors_content (type : TypeExpr) (readable : type.Readable) :
    Factors IsFactor type.content := by
  cases type with
  | keyword name => exact .single ⟨rfl, trivial⟩
  | literal text => exact readable.elim
  | reference name target arguments =>
      exact .single ⟨rfl, separated_sums (factors_contents arguments readable.2)⟩
  | array element => exact .single ⟨rfl, separated_sum (factors_content element readable)⟩
  | tuple types => exact .single ⟨rfl, separated_sums (factors_contents types readable)⟩
  | union types =>
      have each := factors_contents types readable.2
      cases types with
      | nil => exact absurd readable.1 (by decide)
      | cons first later => exact .joined .or each
  | intersection types =>
      have each := factors_contents types readable.2
      cases types with
      | nil => exact absurd readable.1 (by decide)
      | cons first later => exact .joined .and each

theorem factors_contents (types : List TypeExpr) (readable : AllReadable types) :
    ∀ content ∈ contents types, Factors IsFactor content := by
  cases types with
  | nil => exact List.forall_mem_nil _
  | cons type rest =>
      rw [contents, List.forall_mem_cons]
      exact ⟨factors_content type readable.1, factors_contents rest readable.2⟩

end

/-! ## What is flattened has the unions in intersections that it had -/

theorem separated_of_unionMembers {type : TypeExpr}
    (each : ∀ member ∈ type.unionMembers, member.Separated) : type.Separated := by
  cases type with
  | union types => exact allSeparated_iff.mpr each
  | _ => exact each _ (List.mem_singleton_self _)

theorem separated_of_intersectionMembers {type : TypeExpr}
    (each : ∀ member ∈ type.intersectionMembers, member.isUnion = false ∧ member.Separated) :
    type.isUnion = false ∧ type.Separated := by
  cases type with
  | intersection types =>
      exact ⟨rfl, fun type member => (each type member).1,
        allSeparated_iff.mpr fun type member => (each type member).2⟩
  | _ => exact each _ (List.mem_singleton_self _)

mutual

theorem separated_of_flattened (type : TypeExpr) (separated : type.flattened.Separated) :
    type.Separated := by
  cases type with
  | keyword name => trivial
  | literal text => trivial
  | reference name target arguments =>
      exact allSeparated_of_flattened arguments (allSeparated_iff.mp separated)
  | array element => exact separated_of_flattened element separated
  | tuple types => exact allSeparated_of_flattened types (allSeparated_iff.mp separated)
  | union types =>
      refine allSeparated_of_flattened types fun type member => ?_
      refine separated_of_unionMembers fun alternative inType => ?_
      exact allSeparated_iff.mp separated alternative
        (List.mem_flatMap.mpr ⟨type, member, inType⟩)
  | intersection types =>
      obtain ⟨single, inside⟩ := separated
      have each : ∀ type ∈ allFlattened types, type.isUnion = false ∧ type.Separated := by
        intro type member
        refine separated_of_intersectionMembers fun factor inType => ?_
        have held := List.mem_flatMap.mpr ⟨type, member, inType⟩
        exact ⟨single factor held, allSeparated_iff.mp inside factor held⟩
      refine ⟨fun type member => ?_, ?_⟩
      · rw [← isUnion_flattened]
        exact (each _ (mem_allFlattened member)).1
      · exact allSeparated_of_flattened types fun type member => (each type member).2

theorem allSeparated_of_flattened (types : List TypeExpr)
    (separated : ∀ type ∈ allFlattened types, type.Separated) : AllSeparated types := by
  cases types with
  | nil => trivial
  | cons type rest =>
      rw [allFlattened, List.forall_mem_cons] at separated
      exact ⟨separated_of_flattened type separated.1, allSeparated_of_flattened rest separated.2⟩

end

/-- The text of a type that is made of names, arrays, tuples, unions and intersections is the text
of a type without unions in intersections, and it is read as such.  So it is read as the type
itself, up to unions in unions and intersections in intersections, exactly when no union stands
directly in an intersection. -/
theorem plain_is_read_back_iff {type : TypeExpr} (readable : type.Readable) :
    (∃ other, read? type.plain = some other ∧ other.Separated) ∧
      (read? type.plain = some type.flattened ↔ type.Separated) := by
  have read : read? type.plain = some (sum type.content.all) := (reads_plain type readable).read?_eq
  have separated : (sum type.content.all).Separated :=
    separated_sum (factors_content type readable)
  refine ⟨⟨_, read, separated⟩, ?_⟩
  rw [read, Option.some.injEq]
  constructor
  · intro same
    rw [same] at separated
    exact separated_of_flattened type separated
  · intro apart
    rw [says_content type readable apart, (regular_flattened type readable).sum_eq]

/-- Unions in an array and in type arguments, and an intersection in a union. -/
def shape : TypeExpr :=
  .union
    [.array (.union [.reference "Circle" (some ⟨"class:Circle"⟩) [], .keyword "null"]),
     .union
      [.intersection [.reference "Polygon" none [], .tuple [.keyword "number"]],
       .reference "Map" none [.keyword "string", .union [.keyword "number", .array (.tuple [])]]]]

/-- The shape is read back, with one union instead of two. -/
theorem plain_of_shape_is_read_back :
    shape.Readable ∧
      shape.plain = "(Circle | null)[] | Polygon & [number] | Map<string, number | [][]>" ∧
      shape.Separated ∧ read? shape.plain = some shape.flattened := by
  have readable : shape.Readable := by
    simp only [shape, Readable, AllReadable]
    decide
  have separated : shape.Separated := by
    simp only [shape, Separated, AllSeparated]
    decide
  exact ⟨readable, by decide +kernel, separated,
    (plain_is_read_back_iff readable).2.mpr separated⟩

/-- An intersection with a union in it. -/
def taggedShape : TypeExpr :=
  .intersection [.union [.reference "Circle" none [], .reference "Polygon" none []],
    .reference "Tagged" none []]

/-- The intersection is read as a union: without parentheses, the types in it do not stay
together. -/
theorem plain_of_tagged_is_not_read_back :
    taggedShape.Readable ∧ taggedShape.plain = "Circle | Polygon & Tagged" ∧
      read? taggedShape.plain = some (.union [.reference "Circle" none [],
        .intersection [.reference "Polygon" none [], .reference "Tagged" none []]]) ∧
      read? taggedShape.plain ≠ some taggedShape.flattened := by
  have readable : taggedShape.Readable := by
    simp only [taggedShape, Readable, AllReadable]
    decide
  have read : read? taggedShape.plain = some (.union [.reference "Circle" none [],
      .intersection [.reference "Polygon" none [], .reference "Tagged" none []]]) :=
    (reads_plain taggedShape readable).read?_eq
  refine ⟨readable, by decide +kernel, read, ?_⟩
  rw [read]
  intro same
  cases same

end ApiManual.TypeExpr
