import ApiManual.Proofs.Json.Words
import Mathlib.Data.List.Forall2

/-!
# Reading what was written

The reader is a machine that takes a text character by character, so a text is read by reading its
parts in turn.  A part ends either between two tokens or in a word that is still open, and the mark
that follows closes the word.  From an invariant of the states in which a value may begin, each
layout of a value leads to the state behind that value; both layouts of a whole document are cases.
-/

namespace ApiManual.Json

/-! ## Parts of a text -/

namespace Reader

/-- The state of a reader once the word it may be in the middle of is complete. -/
def settled (reader : Reader) : Option State :=
  match reader.begun with
  | .nothing => some reader.state
  | .word letters => reader.state.accept (.word letters.reverse)
  | .quoted _ | .escape _ => none

theorem finish_eq_settled (reader : Reader) :
    reader.finish = reader.settled.bind State.value? := by
  obtain ⟨state, begun⟩ := reader
  cases begun <;> rfl

/-- A mark is read as if the word before it had been complete. -/
theorem feed_of_settled {reader : Reader} {state : State} {mark : Char}
    (settled : reader.settled = some state) (ends : endsWord mark = true) :
    reader.feed mark = feedFresh state mark := by
  obtain ⟨inside, begun⟩ := reader
  cases begun with
  | nothing =>
      obtain rfl : inside = state := Option.some.inj settled
      rfl
  | word letters =>
      have accepted : inside.accept (.word letters.reverse) = some state := settled
      simp [feed, ends, accepted]
  | quoted body => cases settled
  | escape body => cases settled

end Reader

/-- A punctuation mark as it is written. -/
structure Mark where
  text : String
  char : Char
  token : Token
  alone : text.toList = [char]
  isToken : Token.punctuation? char = some token

namespace Mark

def comma : Mark := ⟨",", ',', .comma, by decide, rfl⟩

def colon : Mark := ⟨":", ':', .colon, by decide, rfl⟩

end Mark

namespace State

/-- Reading a text between two tokens leads from one state to another. -/
def Crosses (state : State) (text : String) (next : State) : Prop :=
  text.toList.foldlM Reader.feed ⟨state, .nothing⟩ = some ⟨next, .nothing⟩

/-- Reading a text leads from one state to another once its last word is complete. -/
def Leads (state : State) (text : String) (next : State) : Prop :=
  ∃ reader, text.toList.foldlM Reader.feed ⟨state, .nothing⟩ = some reader ∧
    reader.settled = some next

variable {state middle next : State} {first second : String}

theorem Crosses.append (before : Crosses state first middle)
    (behind : Crosses middle second next) : Crosses state (first ++ second) next := by
  unfold Crosses at *
  rw [String.toList_append, List.foldlM_append, before]
  exact behind

theorem Crosses.append_leads (before : Crosses state first middle)
    (behind : Leads middle second next) : Leads state (first ++ second) next := by
  obtain ⟨reader, read, settled⟩ := behind
  refine ⟨reader, ?_, settled⟩
  unfold Crosses at before
  rw [String.toList_append, List.foldlM_append, before]
  exact read

/-- A text that begins with a mark may follow one that ends in a word. -/
theorem Leads.append_crosses (before : Leads state first middle)
    (mark : second.toList.head?.any Reader.endsWord = true)
    (behind : Crosses middle second next) : Crosses state (first ++ second) next := by
  obtain ⟨reader, read, settled⟩ := before
  unfold Crosses at *
  rw [String.toList_append, List.foldlM_append, read]
  cases chars : second.toList with
  | nil => simp [chars] at mark
  | cons char rest =>
      rw [chars] at behind mark
      rw [← behind]
      show (char :: rest).foldlM Reader.feed reader = _
      rw [List.foldlM_cons, List.foldlM_cons, Reader.feed_of_settled settled mark]
      rfl

theorem Crosses.leads (crosses : Crosses state first next) : Leads state first next :=
  ⟨_, crosses, rfl⟩

/-- White space between tokens is skipped. -/
theorem crosses_of_spaces (state : State) {gap : String} (spaces : gap.toList.all isSpace) :
    Crosses state gap state := by
  unfold Crosses
  generalize gap.toList = chars at spaces
  induction chars with
  | nil => rfl
  | cons char rest ih =>
      rw [List.all_cons, Bool.and_eq_true] at spaces
      have skipped : Reader.feed ⟨state, .nothing⟩ char = some ⟨state, .nothing⟩ :=
        if_pos spaces.1
      rw [List.foldlM_cons, skipped]
      exact ih spaces.2

/-- A punctuation mark is a token of its own. -/
theorem crosses_mark (mark : Mark) (accepted : state.accept mark.token = some next) :
    Crosses state mark.text next := by
  obtain ⟨text, char, token, alone, isToken⟩ := mark
  have fed : Reader.feedFresh state char = (state.accept token).map (⟨·, .nothing⟩) := by
    unfold Token.punctuation? at isToken
    split at isToken
    case h_7 => cases isToken
    all_goals
      cases isToken
      rfl
  have accepted : state.accept token = some next := accepted
  unfold Crosses
  rw [alone, List.foldlM_cons]
  show (Reader.feedFresh state char).bind _ = _
  rw [fed, accepted]
  rfl

/-! ## Texts and words -/

theorem feed_quoted (state : State) (body : List Char) {char : Char} (inside : char ≠ '"')
    (unescaped : char ≠ '\\') :
    Reader.feed ⟨state, .quoted body⟩ char = some ⟨state, .quoted (char :: body)⟩ := by
  simp [Reader.feed, inside, unescaped]

theorem foldlM_feed_escape (state : State) (body : List Char) (char : Char) :
    (escape char).foldlM Reader.feed ⟨state, .quoted body⟩ =
      some ⟨state, .quoted ((escape char).reverse ++ body)⟩ := by
  unfold escape
  split
  case h_8 quoted backslash _ _ _ _ _ =>
    split
    · next control =>
        obtain ⟨high, high'⟩ := hexDigit_ne (char.toNat / 16) (by omega)
        obtain ⟨low, low'⟩ := hexDigit_ne (char.toNat % 16) (Nat.mod_lt _ (by decide))
        simp [Reader.feed, high, high', low, low']
    · next printed =>
        rw [List.foldlM_cons, feed_quoted state body quoted backslash]
        rfl
  all_goals rfl

theorem foldlM_feed_flatMap_escape (state : State) (body chars : List Char) :
    (chars.flatMap escape).foldlM Reader.feed ⟨state, .quoted body⟩ =
      some ⟨state, .quoted ((chars.flatMap escape).reverse ++ body)⟩ := by
  induction chars generalizing body with
  | nil => rfl
  | cons char rest ih =>
      rw [List.flatMap_cons, List.foldlM_append, foldlM_feed_escape]
      show List.foldlM _ _ _ = _
      rw [ih, List.reverse_append, List.append_assoc]

/-- A text in quotes is one token. -/
theorem crosses_quote {text : String}
    (accepted : state.accept (.quoted (text.toList.flatMap escape)) = some next) :
    Crosses state (quote text) next := by
  have chars : (quote text).toList = '"' :: (text.toList.flatMap escape ++ ['"']) := by
    simp [quote]
  have opened : Reader.feed ⟨state, .nothing⟩ '"' = some ⟨state, .quoted []⟩ := rfl
  have closed : Reader.feed ⟨state, .quoted (text.toList.flatMap escape).reverse⟩ '"' =
      some ⟨next, .nothing⟩ := by
    simp [Reader.feed, accepted]
  unfold Crosses
  rw [chars, List.foldlM_cons, opened]
  simp [List.foldlM_append, foldlM_feed_flatMap_escape, closed]

theorem foldlM_feed_letters (state : State) (begun : List Char) {letters : List Char}
    (inside : letters.any Reader.endsWord = false) :
    letters.foldlM Reader.feed ⟨state, .word begun⟩ =
      some ⟨state, .word (letters.reverse ++ begun)⟩ := by
  induction letters generalizing begun with
  | nil => rfl
  | cons letter rest ih =>
      rw [List.any_cons, Bool.or_eq_false_iff] at inside
      have taken : Reader.feed ⟨state, .word begun⟩ letter =
          some ⟨state, .word (letter :: begun)⟩ := by
        simp [Reader.feed, inside.1]
      rw [List.foldlM_cons, taken]
      show List.foldlM _ _ _ = _
      rw [ih _ inside.2]
      simp

/-- A word is one token, complete only once something follows. -/
theorem leads_of_word {text : String} (some_letter : text.toList ≠ [])
    (inside : text.toList.any Reader.endsWord = false)
    (accepted : state.accept (.word text.toList) = some next) : Leads state text next := by
  unfold Leads
  generalize text.toList = letters at some_letter inside accepted
  cases letters with
  | nil => exact absurd rfl some_letter
  | cons letter rest =>
      rw [List.any_cons, Bool.or_eq_false_iff] at inside
      have begun : Reader.feed ⟨state, .nothing⟩ letter = some ⟨state, .word [letter]⟩ := by
        have mark := inside.1
        simp only [Reader.endsWord, Bool.or_eq_false_iff, decide_eq_false_iff_not,
          Option.isSome_eq_false_iff, Option.isNone_iff_eq_none] at mark
        simp [Reader.feed, Reader.feedFresh, mark]
      refine ⟨⟨state, .word (rest.reverse ++ [letter])⟩, ?_, ?_⟩
      · rw [List.foldlM_cons, begun]
        exact foldlM_feed_letters state [letter] inside.2
      · simp [Reader.settled, accepted]

/-! ## Values -/

/-- Whether a value may begin. -/
def AwaitsValue (state : State) : Prop :=
  ∀ token, token ≠ .endArray → state.accept token = acceptValue state.enclosing token

theorem awaitsValue_value (enclosing : List Enclosing) : AwaitsValue ⟨enclosing, .value⟩ :=
  fun _ _ => rfl

theorem awaitsValue_firstItem (enclosing : List Enclosing) :
    AwaitsValue ⟨enclosing, .firstItem⟩ := by
  intro token inside
  cases token with
  | endArray => exact absurd rfl inside
  | _ => rfl

end State

/-- A text denotes a value when it leads behind that value wherever a value may begin. -/
def Denotes (text : String) (value : Json) : Prop :=
  ∀ state : State, state.AwaitsValue → state.Leads text ⟨state.enclosing, .afterValue value⟩

/-- A text that denotes a value is read as that value. -/
theorem parse?_of_denotes {text : String} {value : Json} (denotes : Denotes text value) :
    parse? text = some value := by
  obtain ⟨reader, read, settled⟩ := denotes .start (State.awaitsValue_value [])
  have finished : reader.finish = some value := by
    rw [Reader.finish_eq_settled, settled]
    rfl
  unfold parse? Reader.start
  rw [read]
  exact finished

theorem denotes_quote (text : String) : Denotes (quote text) (.string text) := by
  intro state awaits
  refine State.Crosses.leads (State.crosses_quote ?_)
  rw [awaits _ (by nofun)]
  show Option.map _ ((quotedText? _).map _) = _
  rw [quotedText?_flatMap_escape]
  rfl

theorem denotes_word {text : String} {value : Json} (some_letter : text.toList ≠ [])
    (inside : text.toList.any Reader.endsWord = false)
    (word : wordValue? text.toList = some value) : Denotes text value := by
  intro state awaits
  refine State.leads_of_word some_letter inside ?_
  rw [awaits _ (by nofun)]
  show (wordValue? text.toList).map _ = _
  rw [word]
  rfl

theorem denotes_number {text : String} (number : isNumber text = true) :
    Denotes text (.number text) := by
  obtain ⟨decimal, read, _⟩ := ofChars?_of_isNumber number
  refine denotes_word ?_ ?_ (wordValue?_of_isNumber number)
  · intro blank
    rw [blank] at read
    cases read
  · refine List.any_eq_false.mpr fun letter member => ?_
    rw [endsWord_of_isNumeral (Decimal.isNumeral_of_ofChars? read _ member)]
    decide

/-! ## Containers -/

/-- How the entries of a container are read: the states in which an entry may begin, given those
read so far, last first, and the states behind an entry. -/
structure Container (α : Type) where
  opening : Mark
  closing : Mark
  waiting : List Enclosing → List α → State
  behind : List Enclosing → List α → α → State
  value : List α → Json
  opens : ∀ state : State, state.AwaitsValue →
    state.accept opening.token = some (waiting state.enclosing [])
  goesOn : ∀ enclosing done entry,
    (behind enclosing done entry).accept .comma = some (waiting enclosing (entry :: done))
  closes : ∀ enclosing done entry, (behind enclosing done entry).accept closing.token =
    some ⟨enclosing, .afterValue (value (entry :: done).reverse)⟩
  closesEmpty : ∀ enclosing, (waiting enclosing []).accept closing.token =
    some ⟨enclosing, .afterValue (value [])⟩

namespace Container

/-- The arrays, with their items. -/
def arrays : Container Json where
  opening := ⟨"[", '[', .beginArray, by decide, rfl⟩
  closing := ⟨"]", ']', .endArray, by decide, rfl⟩
  waiting enclosing
    | [] => ⟨.array [] :: enclosing, .firstItem⟩
    | done => ⟨.array done :: enclosing, .value⟩
  behind enclosing done item := ⟨.array done :: enclosing, .afterValue item⟩
  value := .array
  opens state awaits := awaits .beginArray (by nofun)
  goesOn _ _ _ := rfl
  closes _ _ _ := rfl
  closesEmpty _ := rfl

/-- The objects, with their fields. -/
def objects : Container (String × Json) where
  opening := ⟨"\x7b", '\x7b', .beginObject, by decide, rfl⟩
  closing := ⟨"\x7d", '\x7d', .endObject, by decide, rfl⟩
  waiting enclosing
    | [] => ⟨enclosing, .firstKey⟩
    | done => ⟨enclosing, .key done true⟩
  behind enclosing done field := ⟨.object done true field.1 :: enclosing, .afterValue field.2⟩
  value := .object
  opens state awaits := awaits .beginObject (by nofun)
  goesOn _ _ _ := rfl
  closes _ _ _ := rfl
  closesEmpty _ := rfl

variable {α : Type} (container : Container α)

/-- A text denotes an entry when it leads behind that entry wherever an entry may begin. -/
def Reads (text : String) (entry : α) : Prop :=
  ∀ enclosing done,
    (container.waiting enclosing done).Leads text (container.behind enclosing done entry)

variable {container} {before after : String} {texts : List String} {entries : List α}

/-- What follows the last entry of a container ends a word. -/
theorem endsWord_closing (spaces : after.toList.all isSpace) :
    (after ++ container.closing.text).toList.head?.any Reader.endsWord = true := by
  rw [String.toList_append, container.closing.alone]
  cases chars : after.toList with
  | nil => simp [Reader.endsWord, container.closing.isToken]
  | cons space rest =>
      rw [chars, List.all_cons, Bool.and_eq_true] at spaces
      simp [Reader.endsWord, spaces.1]

/-- The entries of a container and its closing bracket, with commas and white space between. -/
theorem crosses_entries (inner : before.toList.all isSpace) (outer : after.toList.all isSpace)
    (each : List.Forall₂ container.Reads texts entries) (some_entry : texts ≠ [])
    (enclosing : List Enclosing) (done : List α) :
    (container.waiting enclosing done).Crosses
      (("," ++ before).intercalate texts ++ (after ++ container.closing.text))
      ⟨enclosing, .afterValue (container.value (done.reverse ++ entries))⟩ := by
  induction each generalizing done with
  | nil => exact absurd rfl some_entry
  | @cons text entry texts entries first rest ih =>
      cases rest with
      | nil =>
          rw [String.intercalate_singleton, ← List.reverse_cons]
          exact (first enclosing done).append_crosses (endsWord_closing outer)
            ((State.crosses_of_spaces _ outer).append
              (State.crosses_mark _ (container.closes enclosing done entry)))
      | @cons nextText nextEntry laterTexts laterEntries =>
          have comma : (container.behind enclosing done entry).Crosses ","
              (container.waiting enclosing (entry :: done)) :=
            State.crosses_mark .comma (container.goesOn enclosing done entry)
          have later := ih (List.cons_ne_nil _ _) (entry :: done)
          rw [List.reverse_cons, List.append_assoc] at later
          rw [String.intercalate_cons_cons]
          simp only [String.append_assoc]
          exact (first enclosing done).append_crosses (by simp; decide)
            (comma.append ((State.crosses_of_spaces _ inner).append later))

theorem denotes_value (before after : String) (inner : before.toList.all isSpace)
    (outer : after.toList.all isSpace)
    (each : List.Forall₂ container.Reads texts entries) (some_entry : texts ≠ []) :
    Denotes (container.opening.text ++ (before ++
      (("," ++ before).intercalate texts ++ (after ++ container.closing.text))))
      (container.value entries) := by
  intro state awaits
  have opened := State.crosses_mark _ (container.opens state awaits)
  have read := crosses_entries inner outer each some_entry state.enclosing []
  exact (opened.append ((State.crosses_of_spaces _ inner).append read)).leads

theorem denotes_empty :
    Denotes (container.opening.text ++ container.closing.text) (container.value []) := by
  intro state awaits
  exact ((State.crosses_mark _ (container.opens state awaits)).append
    (State.crosses_mark _ (container.closesEmpty state.enclosing))).leads

/-- A container on one line, without spaces. -/
theorem denotes_oneLine (each : List.Forall₂ container.Reads texts entries) :
    Denotes (container.opening.text ++ ",".intercalate texts ++ container.closing.text)
      (container.value entries) := by
  cases each with
  | nil =>
      rw [String.intercalate_nil, String.append_empty]
      exact denotes_empty
  | cons first rest =>
      have denotes := denotes_value "" "" rfl rfl (.cons first rest)
        (List.cons_ne_nil _ _)
      rwa [String.empty_append, String.empty_append, String.append_empty,
        ← String.append_assoc] at denotes

theorem all_isSpace_lineStart (level : Nat) : ("\n" ++ indentation level).toList.all isSpace := by
  simp [indentation, isSpace]

/-- A container with one entry a line. -/
theorem denotes_bracketed (level : Nat) (each : List.Forall₂ container.Reads texts entries) :
    Denotes (bracketed level container.opening.text container.closing.text texts)
      (container.value entries) := by
  cases each with
  | nil => exact denotes_empty
  | cons first rest =>
      have denotes := denotes_value _ _ (all_isSpace_lineStart (level + 1))
        (all_isSpace_lineStart level) (.cons first rest) (List.cons_ne_nil _ _)
      simp only [← String.append_assoc] at denotes
      simpa only [bracketed, List.isEmpty_cons, Bool.false_eq_true, if_false,
        ← String.append_assoc] using denotes

theorem reads_item {text : String} {item : Json} (denotes : Denotes text item) :
    arrays.Reads text item := by
  intro enclosing done
  cases done with
  | nil => exact denotes _ (State.awaitsValue_firstItem _)
  | cons last earlier => exact denotes _ (State.awaitsValue_value _)

theorem reads_field (gap : String) {separator text : String} {value : Json}
    (separates : separator = ":" ++ gap) (spaces : gap.toList.all isSpace)
    (denotes : Denotes text value) (key : String) :
    objects.Reads (quote key ++ separator ++ text) (key, value) := by
  intro enclosing done
  have named : (objects.waiting enclosing done).accept (.quoted (key.toList.flatMap escape)) =
      some ⟨enclosing, .colon done true key⟩ := by
    cases done with
    | nil =>
        show Option.map _ (quotedText? _) = _
        rw [quotedText?_flatMap_escape]
        rfl
    | cons last earlier =>
        show Option.map _ (quotedText? _) = _
        rw [quotedText?_flatMap_escape]
        rfl
  have colon : State.Crosses ⟨enclosing, .colon done true key⟩ ":"
      ⟨.object done true key :: enclosing, .value⟩ :=
    State.crosses_mark .colon rfl
  rw [separates, String.append_assoc, String.append_assoc]
  exact (State.crosses_quote named).append_leads (colon.append_leads
    ((State.crosses_of_spaces _ spaces).append_leads (denotes _ (State.awaitsValue_value _))))

end Container

/-! ## Both layouts -/

mutual

/-- Whether a value can be written and read back: no part of it is unreadable, and each number is
one. -/
def isWritable : Json → Bool
  | .number text => isNumber text
  | .array items => allWritable items
  | .object fields => fieldsWritable fields
  | .unreadable => false
  | _ => true

/-- Whether each of the values can be written and read back. -/
def allWritable : List Json → Bool
  | [] => true
  | item :: rest => item.isWritable && allWritable rest

/-- Whether each field value can be written and read back. -/
def fieldsWritable : List (String × Json) → Bool
  | [] => true
  | (_, value) :: rest => value.isWritable && fieldsWritable rest

end

theorem denotes_null : Denotes "null" .null :=
  denotes_word (by decide) (by decide) rfl

theorem denotes_boolText (value : Bool) : Denotes (boolText value) (.bool value) := by
  cases value with
  | false => exact denotes_word (by decide) (by decide) rfl
  | true => exact denotes_word (by decide) (by decide) rfl

mutual

/-- A value on one line denotes the value. -/
theorem denotes_compact (value : Json) (writable : value.isWritable = true) :
    Denotes value.compact value := by
  cases value with
  | null => exact denotes_null
  | bool value => exact denotes_boolText value
  | number text => exact denotes_number writable
  | string text => exact denotes_quote text
  | array items =>
      rw [compact]
      exact Container.arrays.denotes_oneLine (reads_compactItems items writable)
  | object fields =>
      rw [compact]
      exact Container.objects.denotes_oneLine (reads_compactFields fields writable)
  | unreadable => cases writable

theorem reads_compactItems (items : List Json) (writable : allWritable items = true) :
    List.Forall₂ Container.arrays.Reads (compactItems items) items := by
  cases items with
  | nil => exact .nil
  | cons item rest =>
      rw [allWritable, Bool.and_eq_true] at writable
      exact .cons (Container.reads_item (denotes_compact item writable.1))
        (reads_compactItems rest writable.2)

theorem reads_compactFields (fields : List (String × Json))
    (writable : fieldsWritable fields = true) :
    List.Forall₂ Container.objects.Reads (compactFields fields) fields := by
  cases fields with
  | nil => exact .nil
  | cons field rest =>
      obtain ⟨key, value⟩ := field
      rw [fieldsWritable, Bool.and_eq_true] at writable
      exact .cons (Container.reads_field "" (by decide) rfl
        (denotes_compact value writable.1) key) (reads_compactFields rest writable.2)

end

mutual

/-- A value over several lines denotes the value, however deep it stands. -/
theorem denotes_indented (level : Nat) (value : Json) (writable : value.isWritable = true) :
    Denotes (value.indented level) value := by
  cases value with
  | array items =>
      rw [indented]
      exact Container.arrays.denotes_bracketed level
        (reads_indentedItems (level + 1) items writable)
  | object fields =>
      rw [indented]
      exact Container.objects.denotes_bracketed level
        (reads_indentedFields (level + 1) fields writable)
  | null | bool _ | number _ | string _ => exact denotes_compact _ writable
  | unreadable => cases writable

theorem reads_indentedItems (level : Nat) (items : List Json)
    (writable : allWritable items = true) :
    List.Forall₂ Container.arrays.Reads (indentedItems level items) items := by
  cases items with
  | nil => exact .nil
  | cons item rest =>
      rw [allWritable, Bool.and_eq_true] at writable
      exact .cons (Container.reads_item (denotes_indented level item writable.1))
        (reads_indentedItems level rest writable.2)

theorem reads_indentedFields (level : Nat) (fields : List (String × Json))
    (writable : fieldsWritable fields = true) :
    List.Forall₂ Container.objects.Reads (indentedFields level fields) fields := by
  cases fields with
  | nil => exact .nil
  | cons field rest =>
      obtain ⟨key, value⟩ := field
      rw [fieldsWritable, Bool.and_eq_true] at writable
      exact .cons (Container.reads_field " " (by decide) rfl
        (denotes_indented level value writable.1) key) (reads_indentedFields level rest writable.2)

end

/-- A value is read from its text on one line. -/
theorem parse?_compact {value : Json} (writable : value.isWritable = true) :
    parse? value.compact = some value :=
  parse?_of_denotes (denotes_compact value writable)

/-- A value is read from its text over several lines. -/
theorem parse?_pretty {value : Json} (writable : value.isWritable = true) :
    parse? value.pretty = some value :=
  parse?_of_denotes (denotes_indented 0 value writable)

end ApiManual.Json
