import ApiManual.Text.Blank
import ApiManual.TypeExpr.Text
import Mathlib.Data.List.Forall2

/-!
# Reading type text

What the text of a type says: brackets behind a type make an array of it, before `&` puts types
together, before `|` does, and parentheses group.  A text says nothing of targets, and a keyword
is a name like any other.

A text is read token by token.  What has been read and is not complete yet is kept by level: the
innermost one is being read, and each of the others waits for a closing bracket.
-/

namespace ApiManual.TypeExpr

namespace Reader

/-! ## Tokens -/

/-- A character that stands for itself. -/
inductive Mark where
  | comma
  | bar
  | ampersand
  | openAngle
  | closeAngle
  | openRound
  | closeRound
  | openSquare
  | closeSquare
  deriving DecidableEq, Repr

/-- The mark that a character is. -/
def Mark.ofChar? : Char → Option Mark
  | ',' => some .comma
  | '|' => some .bar
  | '&' => some .ampersand
  | '<' => some .openAngle
  | '>' => some .closeAngle
  | '(' => some .openRound
  | ')' => some .closeRound
  | '[' => some .openSquare
  | ']' => some .closeSquare
  | _ => none

/-- A name or a mark. -/
inductive Token where
  | name (text : String)
  | mark (mark : Mark)
  deriving DecidableEq, Repr

/-- Whether a character can stand in a name. -/
def isNameChar (char : Char) : Bool := (Mark.ofChar? char).isNone && !Text.isBlank char

/-- Characters as a name; nothing when there are none. -/
def nameToken (name : List Char) : List Token :=
  if name = [] then [] else [.name (String.ofList name)]

/-- The tokens of a text behind the characters of a name that may go on. -/
def tokensFrom (name : List Char) : List Char → List Token
  | [] => nameToken name
  | char :: rest =>
      match Mark.ofChar? char with
      | some mark => nameToken name ++ .mark mark :: tokensFrom [] rest
      | none =>
          if Text.isBlank char then nameToken name ++ tokensFrom [] rest
          else tokensFrom (name ++ [char]) rest

/-! ## Levels -/

/-- Several types as one. -/
def together (combine : List TypeExpr → TypeExpr) : List TypeExpr → TypeExpr
  | [type] => type
  | types => combine types

/-- The type of alternatives, each with its factors. -/
def sum (alternatives : List (List TypeExpr)) : TypeExpr :=
  together .union (alternatives.map (together .intersection))

/-- What has been read between two brackets: the types before the last comma, then the
alternatives before the last bar, the factors before the last ampersand, and what has been read
since. -/
structure Level where
  items : List TypeExpr
  alternatives : List (List TypeExpr)
  factors : List TypeExpr
  operand : Option TypeExpr

namespace Level

/-- A level behind a comma. -/
def behind (items : List TypeExpr) : Level := ⟨items, [], [], none⟩

/-- The level after a type without operators. -/
def withOperand (level : Level) (type : TypeExpr) : Level := { level with operand := some type }

/-- The alternatives with the one that is being read. -/
def allAlternatives (level : Level) : List (List TypeExpr) :=
  level.alternatives ++ [level.factors ++ level.operand.toList]

/-- The level behind an ampersand. -/
def endFactor (level : Level) : Level :=
  { level with factors := level.factors ++ level.operand.toList, operand := none }

/-- The level behind a bar. -/
def endAlternative (level : Level) : Level :=
  { level with alternatives := level.allAlternatives, factors := [], operand := none }

/-- All types of a level. -/
def allItems (level : Level) : List TypeExpr := level.items ++ [sum level.allAlternatives]

/-- Whether nothing has been read on a level. -/
def isEmpty (level : Level) : Bool :=
  level.items.isEmpty && level.alternatives.isEmpty && level.factors.isEmpty &&
    level.operand.isNone

end Level

/-- What a closing bracket is waited for. -/
inductive Opening where
  | group
  | tuple
  | arguments (name : String)
  | array (element : TypeExpr)

/-- The level that is being read, and those that wait, from the inside out. -/
abbrev State := Level × List (Opening × Level)

/-- One level further in. The waiting level goes on with the type that the brackets make. -/
def enter (opening : Opening) (level : Level) (waiting : List (Opening × Level)) : State :=
  (.behind [], (opening, { level with operand := none }) :: waiting)

/-- Reads a mark. -/
def stepMark : State → Mark → Option State
  | (level, waiting), .ampersand =>
      if level.operand.isSome then some (level.endFactor, waiting) else none
  | (level, waiting), .bar =>
      if level.operand.isSome then some (level.endAlternative, waiting) else none
  | (level, waiting), .comma =>
      if level.operand.isSome then some (.behind level.allItems, waiting) else none
  | (level, waiting), .openRound =>
      if level.operand.isNone then some (enter .group level waiting) else none
  | (level, waiting), .openAngle =>
      match level.operand with
      | some (.reference name none []) => some (enter (.arguments name) level waiting)
      | _ => none
  | (level, waiting), .openSquare =>
      match level.operand with
      | none => some (enter .tuple level waiting)
      | some element => some (enter (.array element) level waiting)
  | (level, (.group, outer) :: waiting), .closeRound =>
      if level.operand.isSome && level.items.isEmpty then
        some (outer.withOperand (sum level.allAlternatives), waiting)
      else none
  | (level, (.arguments name, outer) :: waiting), .closeAngle =>
      if level.operand.isSome then
        some (outer.withOperand (.reference name none level.allItems), waiting)
      else none
  | (level, (.tuple, outer) :: waiting), .closeSquare =>
      if level.operand.isSome then some (outer.withOperand (.tuple level.allItems), waiting)
      else if level.isEmpty then some (outer.withOperand (.tuple []), waiting)
      else none
  | (level, (.array element, outer) :: waiting), .closeSquare =>
      if level.isEmpty then some (outer.withOperand (.array element), waiting) else none
  | _, _ => none

/-- Reads a token. -/
def step : State → Token → Option State
  | (level, waiting), .name text =>
      if level.operand.isNone then some (level.withOperand (.reference text none []), waiting)
      else none
  | state, .mark mark => stepMark state mark

/-- Reads tokens one after the other. -/
def run (state : State) (tokens : List Token) : Option State := tokens.foldlM step state

end Reader

open Reader in
/-- The type that a text says, if it says one. -/
def read? (text : String) : Option TypeExpr :=
  match run (.behind [], []) (tokensFrom [] text.toList) with
  | some (level, []) =>
      if level.operand.isSome && level.items.isEmpty then some (sum level.allAlternatives)
      else none
  | _ => none

namespace Reader

variable {name rest : List Char}
  {text : String}

/-! ## Reading tokens -/

theorem run_cons (state : State) (token : Token) (later : List Token) :
    run state (token :: later) = (step state token).bind (run · later) := rfl

/-- A text does not begin with what could go on with a name. -/
def Ended (rest : List Char) : Prop := ∀ char later, rest = char :: later → isNameChar char = false

theorem Ended.nil : Ended [] := by
  intro char later whole
  cases whole

theorem Ended.cons {char : Char} (outside : isNameChar char = false) : Ended (char :: rest) := by
  intro first later whole
  rw [← (List.cons.inj whole).1]
  exact outside

theorem tokensFrom_of_ended (ended : Ended rest) :
    tokensFrom name rest = nameToken name ++ tokensFrom [] rest := by
  cases rest with
  | nil => simp [tokensFrom, nameToken]
  | cons char later =>
      have outside := ended char later rfl
      simp only [isNameChar, Bool.and_eq_false_imp, Bool.not_eq_false', Option.isNone_iff_eq_none]
        at outside
      simp only [tokensFrom]
      split
      · simp [nameToken]
      · next none => simp [outside none, nameToken]

theorem tokensFrom_append {chars : List Char} (inside : ∀ char ∈ chars, isNameChar char = true) :
    tokensFrom name (chars ++ rest) = tokensFrom (name ++ chars) rest := by
  induction chars generalizing name with
  | nil => simp
  | cons char later ih =>
      rw [List.forall_mem_cons] at inside
      have isName := inside.1
      simp only [isNameChar, Bool.and_eq_true, Option.isNone_iff_eq_none, Bool.not_eq_true']
        at isName
      rw [List.cons_append, tokensFrom, isName.1, isName.2]
      simp [ih inside.2]

theorem tokensFrom_mark (mark : Mark) {char : Char} (isMark : Mark.ofChar? char = some mark) :
    tokensFrom [] (char :: rest) = .mark mark :: tokensFrom [] rest := by
  simp [tokensFrom, isMark, nameToken]

theorem tokensFrom_space : tokensFrom [] (' ' :: rest) = tokensFrom [] rest := by
  have noMark : Mark.ofChar? ' ' = none := by decide
  have blank : Text.isBlank ' ' = true := by decide
  simp [tokensFrom, noMark, blank, nameToken]

/-! ## What a text adds to a level -/

/-- What the text of a type says without brackets around it: alternatives, then the factors of the
last alternative, of which there is at least one. -/
structure Content where
  alternatives : List (List TypeExpr)
  factors : List TypeExpr
  operand : TypeExpr

namespace Content

/-- A type without operators. -/
def single (type : TypeExpr) : Content := ⟨[], [], type⟩

/-- All alternatives, each with its factors. -/
def all (content : Content) : List (List TypeExpr) :=
  content.alternatives ++ [content.factors ++ [content.operand]]

/-- Alternatives behind others. -/
def or (first second : Content) : Content :=
  { second with alternatives := first.all ++ second.alternatives }

/-- Text behind an ampersand goes on with the last alternative before it, since `&` binds more
tightly than `|`. -/
def and (first second : Content) : Content :=
  match second.alternatives with
  | [] => { second with
      alternatives := first.alternatives
      factors := first.factors ++ first.operand :: second.factors }
  | next :: later => { second with
      alternatives := first.alternatives ++ (first.factors ++ first.operand :: next) :: later }

/-- Texts one after the other. -/
def joined (combine : Content → Content → Content) : Content → List Content → Content
  | first, [] => first
  | first, second :: later => combine first (joined combine second later)

end Content

namespace Level

/-- The level behind the text of a type. -/
def taking (level : Level) (content : Content) : Level :=
  match content.alternatives with
  | [] => { level with
      factors := level.factors ++ content.factors, operand := some content.operand }
  | next :: later => { level with
      alternatives := level.alternatives ++ (level.factors ++ next) :: later
      factors := content.factors, operand := some content.operand }

/-- The level behind the texts of types between commas. -/
def takingItems (items : List TypeExpr) : Content → List Content → Level
  | first, [] => (behind items).taking first
  | first, second :: later => takingItems (items ++ [sum first.all]) second later

@[simp] theorem operand_taking (level : Level) (content : Content) :
    (level.taking content).operand = some content.operand := by
  unfold taking
  split <;> rfl

@[simp] theorem items_taking (level : Level) (content : Content) :
    (level.taking content).items = level.items := by
  unfold taking
  split <;> rfl

theorem allAlternatives_behind_taking (items : List TypeExpr) (content : Content) :
    ((behind items).taking content).allAlternatives = content.all := by
  unfold taking
  split
  · next none => simp [allAlternatives, Content.all, none, behind]
  · next some => simp [allAlternatives, Content.all, some, behind]

@[simp] theorem operand_takingItems (items : List TypeExpr) (first : Content)
    (later : List Content) : ((takingItems items first later).operand).isSome := by
  induction later generalizing items first with
  | nil => simp [takingItems]
  | cons second later ih => exact ih _ second

theorem allItems_takingItems (items : List TypeExpr) (first : Content) (later : List Content) :
    (takingItems items first later).allItems = items ++ (first :: later).map (sum ·.all) := by
  induction later generalizing items first with
  | nil =>
      rw [takingItems, allItems, allAlternatives_behind_taking, items_taking]
      rfl
  | cons second later ih => simp [takingItems, ih]

theorem taking_single (level : Level) (type : TypeExpr) :
    level.taking (.single type) = level.withOperand type := by
  simp [taking, Content.single, withOperand]

theorem taking_or (level : Level) (first second : Content) :
    level.taking (first.or second) = (level.taking first).endAlternative.taking second := by
  obtain ⟨firstAlternatives, _, _⟩ := first
  obtain ⟨secondAlternatives, _, _⟩ := second
  cases firstAlternatives <;> cases secondAlternatives <;>
    simp [taking, Content.or, endAlternative, Content.all, allAlternatives]

theorem taking_and (level : Level) (first second : Content) :
    level.taking (first.and second) = (level.taking first).endFactor.taking second := by
  obtain ⟨firstAlternatives, _, _⟩ := first
  obtain ⟨secondAlternatives, _, _⟩ := second
  cases firstAlternatives <;> cases secondAlternatives <;>
    simp [taking, Content.and, endFactor]

end Level

/-! ## Texts that are read -/

/-- Names are texts without blank characters and marks; identifiers are among them. -/
def IsName (text : String) : Prop := text ≠ "" ∧ ∀ char ∈ text.toList, isNameChar char = true

instance (text : String) : Decidable (IsName text) :=
  @instDecidableAnd _ _ _ (List.decidableBAll (isNameChar · = true) text.toList)

theorem tokensFrom_name (named : IsName text) (ended : Ended rest) :
    tokensFrom [] (text.toList ++ rest) = .name text :: tokensFrom [] rest := by
  have some : text.toList ≠ [] := fun empty => named.1 (String.toList_eq_nil_iff.mp empty)
  rw [tokensFrom_append named.2, tokensFrom_of_ended ended, List.nil_append, nameToken,
    if_neg some, String.ofList_toList, List.singleton_append]

/-- A text is read as what it adds to the level on which it begins. -/
def Reads (text : String) (content : Content) : Prop :=
  ∀ rest, Ended rest → ∀ (level : Level) waiting, level.operand = none →
    run (level, waiting) (tokensFrom [] (text.toList ++ rest)) =
      run (level.taking content, waiting) (tokensFrom [] rest)

namespace Reads

variable {next : String} {content nextContent : Content} {element : TypeExpr}

theorem of_isName (named : IsName text) : Reads text (.single (.reference text none [])) := by
  intro rest ended level waiting free
  have read : step (level, waiting) (.name text) =
      some (level.withOperand (.reference text none []), waiting) := by
    simp [step, free]
  rw [tokensFrom_name named ended, run_cons, read, Level.taking_single]
  rfl

/-- A type in parentheses is one type. -/
theorem group (reads : Reads text content) :
    Reads ("(" ++ text ++ ")") (.single (sum content.all)) := by
  intro rest ended level waiting free
  have opened : step (level, waiting) (.mark .openRound) =
      some (enter .group level waiting) := by
    simp [step, stepMark, free]
  have closed : step ((Level.behind []).taking content,
        (.group, { level with operand := none }) :: waiting) (.mark .closeRound) =
      some (level.withOperand (sum content.all), waiting) := by
    rw [← Level.allAlternatives_behind_taking [] content]
    simp [step, stepMark, Level.withOperand, Level.behind]
  have whole : ("(" ++ text ++ ")").toList ++ rest = '(' :: (text.toList ++ ')' :: rest) := by simp
  rw [whole, tokensFrom_mark .openRound rfl, run_cons, opened, Option.bind_some, enter,
    reads _ (.cons (by decide)) _ _ rfl, tokensFrom_mark .closeRound rfl, run_cons,
    closed, Option.bind_some, Level.taking_single]

/-- Brackets behind a type make an array of it. -/
theorem array (reads : Reads text (.single element)) :
    Reads (text ++ "[]") (.single (.array element)) := by
  intro rest ended level waiting free
  have opened : step (level.withOperand element, waiting) (.mark .openSquare) =
      some (enter (.array element) level waiting) := by
    simp [step, stepMark, Level.withOperand, enter]
  have closed : step (enter (.array element) level waiting) (.mark .closeSquare) =
      some (level.withOperand (.array element), waiting) := by
    simp [step, stepMark, enter, Level.withOperand, Level.behind, Level.isEmpty]
  have whole : (text ++ "[]").toList ++ rest = text.toList ++ '[' :: ']' :: rest := by simp
  rw [whole, reads _ (.cons (by decide)) level waiting free, Level.taking_single,
    tokensFrom_mark .openSquare rfl, run_cons, opened, Option.bind_some,
    tokensFrom_mark .closeSquare rfl, run_cons, closed, Option.bind_some,
    Level.taking_single]

/-! ### Operators -/

theorem bar (first : Reads text content) (second : Reads next nextContent) :
    Reads (text ++ (" | " ++ next)) (content.or nextContent) := by
  intro rest ended level waiting free
  have ends : step (level.taking content, waiting) (.mark .bar) =
      some ((level.taking content).endAlternative, waiting) := by
    simp [step, stepMark]
  have whole : (text ++ (" | " ++ next)).toList ++ rest =
      text.toList ++ ' ' :: '|' :: ' ' :: (next.toList ++ rest) := by simp
  rw [whole, first _ (.cons (by decide)) level waiting free, tokensFrom_space,
    tokensFrom_mark .bar rfl, run_cons, ends, Option.bind_some, tokensFrom_space,
    second rest ended _ waiting rfl, Level.taking_or]

theorem ampersand (first : Reads text content) (second : Reads next nextContent) :
    Reads (text ++ (" & " ++ next)) (content.and nextContent) := by
  intro rest ended level waiting free
  have ends : step (level.taking content, waiting) (.mark .ampersand) =
      some ((level.taking content).endFactor, waiting) := by
    simp [step, stepMark]
  have whole : (text ++ (" & " ++ next)).toList ++ rest =
      text.toList ++ ' ' :: '&' :: ' ' :: (next.toList ++ rest) := by simp
  rw [whole, first _ (.cons (by decide)) level waiting free, tokensFrom_space,
    tokensFrom_mark .ampersand rfl, run_cons, ends, Option.bind_some, tokensFrom_space,
    second rest ended _ waiting rfl, Level.taking_and]

/-- Texts are read one after the other when two are. -/
theorem joined {separator : String} {combine : Content → Content → Content}
    (pair : ∀ {text next content nextContent}, Reads text content → Reads next nextContent →
      Reads (text ++ (separator ++ next)) (combine content nextContent))
    {texts : List String} {contents : List Content}
    (first : Reads text content) (later : List.Forall₂ Reads texts contents) :
    Reads (Text.joined separator (text :: texts)) (.joined combine content contents) := by
  induction later generalizing text content with
  | nil =>
      rw [Text.joined, String.intercalate_singleton]
      exact first
  | cons second later ih =>
      rw [Text.joined, String.intercalate_cons_cons, String.append_assoc]
      exact pair first (ih second)

/-! ### Lists -/

/-- Texts between commas are read on one level. -/
theorem items {texts : List String} {contents : List Content} (first : Reads text content)
    (later : List.Forall₂ Reads texts contents) {rest : List Char} (ended : Ended rest)
    (before : List TypeExpr) (waiting : List (Opening × Level)) :
    run (.behind before, waiting)
        (tokensFrom [] ((Text.joined ", " (text :: texts)).toList ++ rest)) =
      run (.takingItems before content contents, waiting) (tokensFrom [] rest) := by
  induction later generalizing text content before with
  | nil =>
      rw [Text.joined, String.intercalate_singleton]
      exact first rest ended _ waiting rfl
  | @cons next nextContent texts contents second later ih =>
      have ends : step ((Level.behind before).taking content, waiting) (.mark .comma) =
          some (.behind (before ++ [sum content.all]), waiting) := by
        rw [← Level.allAlternatives_behind_taking before content]
        simp [step, stepMark, Level.allItems, Level.behind]
      have whole : (Text.joined ", " (text :: next :: texts)).toList ++ rest =
          text.toList ++ ',' :: ' ' :: ((Text.joined ", " (next :: texts)).toList ++ rest) := by
        simp [Text.joined]
      rw [whole, first _ (.cons (by decide)) _ waiting rfl,
        tokensFrom_mark .comma rfl, run_cons, ends, Option.bind_some, tokensFrom_space,
        ih second]
      rfl

theorem arguments {name : String} {texts : List String} {contents : List Content}
    (named : IsName name) (first : Reads text content)
    (later : List.Forall₂ Reads texts contents) :
    Reads (name ++ ("<" ++ Text.joined ", " (text :: texts) ++ ">"))
      (.single (.reference name none ((content :: contents).map (sum ·.all)))) := by
  intro rest ended level waiting free
  have read : step (level, waiting) (.name name) =
      some (level.withOperand (.reference name none []), waiting) := by
    simp [step, free]
  have opened : step (level.withOperand (.reference name none []), waiting) (.mark .openAngle) =
      some (enter (.arguments name) level waiting) := by
    simp [step, stepMark, Level.withOperand, enter]
  have closed : step (Level.takingItems [] content contents,
        (.arguments name, { level with operand := none }) :: waiting) (.mark .closeAngle) =
      some (level.withOperand (.reference name none ((content :: contents).map (sum ·.all))),
        waiting) := by
    simp [step, stepMark, Level.withOperand, Level.allItems_takingItems]
  have whole : (name ++ ("<" ++ Text.joined ", " (text :: texts) ++ ">")).toList ++ rest =
      name.toList ++ '<' :: ((Text.joined ", " (text :: texts)).toList ++ '>' :: rest) := by simp
  rw [whole, tokensFrom_name named (.cons (by decide)), run_cons, read, Option.bind_some,
    tokensFrom_mark .openAngle rfl, run_cons, opened, Option.bind_some, enter,
    items first later (.cons (by decide)), tokensFrom_mark .closeAngle rfl, run_cons,
    closed, Option.bind_some, Level.taking_single]

theorem emptyTuple : Reads "[]" (.single (.tuple [])) := by
  intro rest ended level waiting free
  have opened : step (level, waiting) (.mark .openSquare) = some (enter .tuple level waiting) := by
    simp [step, stepMark, free]
  have closed : step (enter .tuple level waiting) (.mark .closeSquare) =
      some (level.withOperand (.tuple []), waiting) := by
    simp [step, stepMark, enter, Level.withOperand, Level.behind, Level.isEmpty]
  have whole : "[]".toList ++ rest = '[' :: ']' :: rest := by simp
  rw [whole, tokensFrom_mark .openSquare rfl, run_cons, opened, Option.bind_some,
    tokensFrom_mark .closeSquare rfl, run_cons, closed, Option.bind_some,
    Level.taking_single]

theorem tuple {texts : List String} {contents : List Content} (first : Reads text content)
    (later : List.Forall₂ Reads texts contents) :
    Reads ("[" ++ Text.joined ", " (text :: texts) ++ "]")
      (.single (.tuple ((content :: contents).map (sum ·.all)))) := by
  intro rest ended level waiting free
  have opened : step (level, waiting) (.mark .openSquare) = some (enter .tuple level waiting) := by
    simp [step, stepMark, free]
  have closed : step (Level.takingItems [] content contents,
        (.tuple, { level with operand := none }) :: waiting) (.mark .closeSquare) =
      some (level.withOperand (.tuple ((content :: contents).map (sum ·.all))), waiting) := by
    simp [step, stepMark, Level.withOperand, Level.allItems_takingItems]
  have whole : ("[" ++ Text.joined ", " (text :: texts) ++ "]").toList ++ rest =
      '[' :: ((Text.joined ", " (text :: texts)).toList ++ ']' :: rest) := by simp
  rw [whole, tokensFrom_mark .openSquare rfl, run_cons, opened, Option.bind_some, enter,
    items first later (.cons (by decide)), tokensFrom_mark .closeSquare rfl, run_cons,
    closed, Option.bind_some, Level.taking_single]

/-- A text that is read is read as one type. -/
theorem read?_eq (reads : Reads text content) : read? text = some (sum content.all) := by
  have whole := reads [] .nil (.behind []) [] rfl
  rw [List.append_nil] at whole
  rw [read?, whole, ← Level.allAlternatives_behind_taking [] content]
  simp [tokensFrom, nameToken, run, Level.behind]

end Reads

end Reader

end ApiManual.TypeExpr
