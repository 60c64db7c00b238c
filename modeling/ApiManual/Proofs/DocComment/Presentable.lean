import ApiManual.Page.Render
import ApiManual.Proofs.DocComment.Characters
import ApiManual.Proofs.DocComment.Writing
import Mathlib.Data.List.TakeWhile

/-!
# Comments that can be shown

The texts of a comment go into a page as they are: into list entries, into paragraphs, and between
fences.  Entries must be on one line and code must not hold a fence, or the page would show
something else than the comment says.  No text is escaped or checked when a page is made, so this
rests on how comments are read: which of its lines a block keeps, and what joins them.

It holds of every comment, because it holds of what is kept of each line, and ending a block only
joins what is kept.
-/

namespace ApiManual

namespace Text

/-- Trimmed text is empty or not blank. -/
theorem isBlankText_trim {text : String} (some : trim text ≠ "") :
    isBlankText (trim text) = false := by
  have letters : trimChars text.toList ≠ [] := by
    intro nothing
    rw [trim, nothing] at some
    exact some rfl
  have kept := List.rdropWhile_last_not isBlank _ letters
  rw [isBlankText, trim, String.toList_ofList, List.all_eq_false]
  exact ⟨_, List.getLast_mem letters, kept⟩

end Text

namespace DocComment

/-- Text without a line feed. -/
def OneLine (text : String) : Prop := '\n' ∉ text.toList

/-- A comment that can be shown as it is: what goes into list entries is on one line, prose and
code are not blank, and no line of code begins with a fence. -/
structure Presentable (doc : DocComment) : Prop where
  summary : OneLine doc.summary
  description : ∀ text ∈ doc.description, Text.isBlankText text = false
  params : ∀ param ∈ doc.params, OneLine param.1 ∧ OneLine param.2
  returns : ∀ text ∈ doc.returns, OneLine text
  deprecated : ∀ text ∈ doc.deprecated, OneLine text
  seeAlso : ∀ text ∈ doc.seeAlso, text ≠ "" ∧ OneLine text
  examples : ∀ text ∈ doc.examples,
    Text.isBlankText text = false ∧ ∀ row ∈ rows text, isFence row.toList = false

theorem presentable_empty : empty.Presentable := by
  constructor <;> simp [empty, OneLine]

theorem Presentable.mark {doc : DocComment} (shown : doc.Presentable) (tag : Tag) :
    (mark doc tag).Presentable := by
  cases tag <;> exact { shown with }

/-! ## What blocks keep -/

/-- Lines that a block can keep: pieces of prose are not empty, and lines of code are no fences.
The name of a parameter is on one line too. -/
structure Tag.Keeps (tag : Tag) (kept : List (List Char)) : Prop where
  name : ∀ name, tag = .param name → OneLine name
  oneLine : AllHold (· ≠ '\n') kept
  some : tag ≠ .example → ∀ line ∈ kept, line ≠ []
  unfenced : tag = .example → ∀ line ∈ kept, isFence line = false

theorem oneLine_of_tagOpening {text : List Char} {name : String}
    (param : (tagOpening text).1 = .param name) : OneLine name := by
  simp only [tagOpening] at param
  split at param
  · cases param
    rw [OneLine, String.toList_ofList]
    intro newline
    exact absurd (List.mem_takeWhile_imp newline) (by decide)
  all_goals cases param

theorem ne_nil_of_mem_piece {text line : List Char} (member : line ∈ piece text) :
    line ≠ [] := by
  rw [piece] at member
  split at member
  · cases member
  · next some =>
      rw [List.mem_singleton.mp member]
      exact some

theorem oneLine_of_allHold {text : String} (held : ∀ char ∈ text.toList, char ≠ '\n') :
    OneLine text := fun newline => held '\n' newline rfl

namespace Tag.Keeps

variable {tag : Tag} {kept : List (List Char)}

/-- What a block keeps of its tag line can be kept. -/
theorem opening {text : List Char} (oneLine : ∀ char ∈ text, char ≠ '\n') :
    (tagOpening text).1.Keeps ((tagOpening text).1.keptOpening (tagOpening text).2) where
  name _ param := oneLine_of_tagOpening param
  oneLine := allHold_keptOpening (fun char inside => oneLine char (mem_of_mem_tagOpening inside)) _
  some _ line member := by
    generalize (tagOpening text).1 = tag at member
    cases tag with
    | param | returns | deprecated | see => exact ne_nil_of_mem_piece member
    | «example» | beta | internal | other => cases member
  unfenced code line member := by
    rw [code] at member
    cases member

/-- What a block keeps of one more line can be kept. -/
theorem continued (keeps : tag.Keeps kept) {line : List Char}
    (oneLine : ∀ char ∈ line, char ≠ '\n') : tag.Keeps (kept ++ tag.kept line) where
  name := keeps.name
  oneLine := keeps.oneLine.append (allHold_kept oneLine tag)
  some prose := by
    refine List.forall_mem_append.mpr ⟨keeps.some prose, fun piece member => ?_⟩
    cases tag with
    | param | returns | deprecated | see => exact ne_nil_of_mem_piece member
    | «example» => exact absurd rfl prose
    | beta | internal | other => cases member
  unfenced code := by
    refine List.forall_mem_append.mpr ⟨keeps.unfenced code, fun piece member => ?_⟩
    rw [code, Tag.kept] at member
    split at member
    · cases member
    · next noFence =>
        rw [List.mem_singleton.mp member]
        exact Bool.eq_false_iff.mpr noFence

theorem oneLine_prose (keeps : tag.Keeps kept) : OneLine (prose kept) :=
  oneLine_of_allHold (keeps.oneLine.prose (by decide))

theorem prose_ne_empty (keeps : tag.Keeps kept) (isProse : tag ≠ .example) (some : kept ≠ []) :
    prose kept ≠ "" := by
  obtain ⟨first, rest, rfl⟩ := List.exists_cons_of_ne_nil some
  have letters : first ≠ [] := keeps.some isProse first List.mem_cons_self
  intro nothing
  -- Prose begins as its first piece does, which is not empty.
  have begins : (" ".toList.intercalate (first :: rest)).head? = first.head? :=
    Text.head?_intercalate letters rest
  rw [← Text.toList_joined_ofList, ← prose, nothing] at begins
  exact letters (List.head?_eq_none_iff.mp begins.symm)

/-- The lines of code are among the lines that are kept, but for one empty line where there are
none. -/
theorem unfenced_code (keeps : Tag.Keeps .example kept) :
    ∀ row ∈ rows (code kept), isFence row.toList = false := by
  intro row member
  obtain ⟨chars, cut, rfl⟩ := List.mem_map.mp member
  rw [code, String.toList_ofList] at cut
  have inside := Text.mem_pieces_of_mem_dropBoth cut
  rw [String.toList_ofList]
  -- Where nothing is kept there is still a row, which is empty.
  by_cases nothing : kept = []
  · rw [nothing] at inside
    rw [List.mem_singleton.mp inside]
    rfl
  · have each : ∀ line ∈ kept, '\n' ∉ line := fun line held newline =>
      keeps.oneLine line held '\n' newline rfl
    rw [Text.pieces_joined nothing each] at inside
    exact keeps.unfenced rfl chars inside

/-- A block adds nothing that cannot be shown. -/
theorem addBlock (keeps : tag.Keeps kept) {doc : DocComment} (shown : doc.Presentable) :
    (addBlock doc kept tag).Presentable := by
  cases tag with
  | param name =>
      refine { shown with params := fun param member => ?_ }
      rcases Entries.mem_put member with rfl | old
      · exact ⟨keeps.name name rfl, keeps.oneLine_prose⟩
      · exact shown.params param old
  | returns =>
      exact { shown with returns := by simpa [DocComment.addBlock] using keeps.oneLine_prose }
  | deprecated =>
      exact { shown with deprecated := by simpa [DocComment.addBlock] using keeps.oneLine_prose }
  | see =>
      rw [DocComment.addBlock]
      split
      · exact shown
      · next some =>
          have said := keeps.prose_ne_empty (by simp) (by simpa using some)
          exact { shown with
            seeAlso := List.forall_mem_append.mpr
              ⟨shown.seeAlso, List.forall_mem_singleton.mpr ⟨said, keeps.oneLine_prose⟩⟩ }
  | «example» =>
      rw [DocComment.addBlock]
      split
      · exact shown
      · next said =>
          exact { shown with
            examples := List.forall_mem_append.mpr
              ⟨shown.examples, List.forall_mem_singleton.mpr
                ⟨Bool.eq_false_iff.mpr said, keeps.unfenced_code⟩⟩ }
  | beta | internal | other => exact shown

end Tag.Keeps

/-! ## Reading -/

/-- What has been read can be shown, and what is kept of the open block and of the summary can
become part of it. -/
structure Reading.Presentable (reading : Reading) : Prop where
  doc : reading.doc.Presentable
  block : ∀ tag, reading.place = .block tag → tag.Keeps reading.kept
  summary : AllHold (· ≠ '\n') reading.summary

namespace Reading.Presentable

variable {reading : Reading}

theorem start : Reading.start.Presentable where
  doc := presentable_empty
  block _ opened := by cases opened
  summary := List.forall_mem_nil _

theorem closed (shown : reading.Presentable) : reading.closed.Presentable := by
  rw [Reading.closed]
  split
  · exact shown.doc
  · exact shown.doc
  · next tag opened => exact (shown.block tag opened).addBlock shown.doc

/-- Reading keeps to what can be shown, line by line. -/
theorem step (shown : reading.Presentable) {line : List Char}
    (oneLine : ∀ char ∈ line, char ≠ '\n') : (reading.step line).Presentable := by
  rw [Reading.step]
  split
  · next text tagged =>
      have inText : ∀ char ∈ text, char ≠ '\n' := fun char inside =>
        oneLine char (mem_of_mem_tagText? tagged inside)
      exact {
        doc := shown.closed.mark _
        block := fun tag opened => by
          cases opened
          exact Tag.Keeps.opening inText
        summary := shown.summary }
  · simp only [Reading.continued]
    split
    · next inSummary =>
        split
        · have trimmed : AllHold (· ≠ '\n') [Text.trimChars line] :=
            List.forall_mem_singleton.mpr fun char inside =>
              oneLine char (Text.mem_of_mem_trimChars inside)
          exact { shown with summary := shown.summary.append trimmed }
        · split
          · exact shown
          · exact { shown with block := fun _ opened => by cases opened }
    · exact { shown with }
    · next tag opened =>
        refine { shown with block := fun _ again => ?_ }
        cases opened.symm.trans again
        exact (shown.block tag opened).continued oneLine

theorem finished (shown : reading.Presentable) : reading.finished.Presentable := by
  refine { shown.closed with
    summary := oneLine_of_allHold (shown.summary.joined (by simp)), description := ?_ }
  intro text described
  simp only [Reading.finished] at described
  split at described
  · cases described
  · next some =>
      cases described
      exact Text.isBlankText_trim some

theorem foldl (shown : reading.Presentable) {lines : List (List Char)}
    (oneLine : AllHold (· ≠ '\n') lines) : (lines.foldl Reading.step reading).Presentable := by
  induction lines generalizing reading with
  | nil => exact shown
  | cons line rest ih =>
      rw [AllHold, List.forall_mem_cons] at oneLine
      exact ih (shown.step oneLine.1) oneLine.2

end Reading.Presentable

/-- Every comment can be shown. -/
theorem presentable_parse (source : String) : (parse source).Presentable := by
  have oneLine : AllHold (· ≠ '\n') (Text.linesOf source.toList) := fun line cut char inside same =>
    Text.newline_not_mem_of_mem_linesOf cut (same ▸ inside)
  exact (Reading.Presentable.start.foldl oneLine).finished

/-! ## Comments on a page -/

theorem isFence_of_isLineOf {line piece : List Char} (isLine : Text.IsLineOf line piece) :
    isFence piece = isFence line := by
  rcases isLine with rfl | rfl
  · rfl
  · rw [isFence, isFence, Text.trimChars, Text.dropBoth_concat (by decide), ← Text.trimChars]

theorem Presentable.unfenced_lines {doc : DocComment} (shown : doc.Presentable) {text : String}
    (member : text ∈ doc.examples) : ∀ line ∈ Text.lines text, isFence line.toList = false := by
  intro line cut
  obtain ⟨chars, ofText, rfl⟩ := List.mem_map.mp cut
  obtain ⟨piece, between, isLine⟩ := Text.exists_piece_of_mem_linesOf ofText
  have unfenced := (shown.examples text member).2 _ (List.mem_map_of_mem between)
  rw [String.toList_ofList, isFence_of_isLineOf isLine] at unfenced
  rwa [String.toList_ofList]

theorem height_append {front text : String} (oneLine : OneLine text) :
    height (front ++ text) = height front := by
  rw [height, height, String.toList_append, List.count_append, List.count_eq_zero.mpr oneLine,
    Nat.add_zero]

/-- The description of a parameter is put behind what stands in its entry anyway. -/
theorem parameterItem_eq (doc : DocComment) (parameter : Parameter) (used : References) :
    (Prose.parameterItem doc parameter used).1 =
      (Prose.parameterItem empty parameter used).1 ++
        match doc.param? parameter.name with
        | none => ""
        | some text => " - " ++ text := by
  have behind : ∀ front description : String,
      front ++ description = front ++ "" ++ description := by
    intro front description
    rw [String.append_empty]
  cases named : parameter.type with
  | none =>
      simp only [Prose.parameterItem, named]
      exact behind _ _
  | some type =>
      simp only [Prose.parameterItem, named]
      exact behind _ _

theorem OneLine.after_dash {text : String} (oneLine : OneLine text) : OneLine (" - " ++ text) := by
  rw [OneLine, String.toList_append, List.mem_append, not_or]
  exact ⟨by decide, oneLine⟩

/-- Entries with nothing below them are on as many lines as there are entries. -/
theorem listLines_of_texts (texts : List String) :
    Markdown.listLines 0 (texts.map fun text => ⟨text, []⟩) = texts.map ("- " ++ ·) := by
  induction texts with
  | nil => rfl
  | cons text rest ih => rw [List.map_cons, Markdown.listLines, ih, List.map_cons]; rfl

namespace Presentable

variable {doc : DocComment}

/-- The entry of a parameter is as high as without a comment. -/
theorem height_parameterItem (shown : doc.Presentable) (parameter : Parameter)
    (used : References) : height (Prose.parameterItem doc parameter used).1 =
      height (Prose.parameterItem empty parameter used).1 := by
  rw [parameterItem_eq]
  apply height_append
  cases found : doc.param? parameter.name with
  | none => exact List.not_mem_nil
  | some text =>
      obtain ⟨looked, _⟩ := Option.filter_eq_some_iff.mp found
      obtain ⟨before, after, split, _⟩ := List.lookup_eq_some_iff.mp looked
      have described := (shown.params (parameter.name, text) (by simp [split])).2
      exact described.after_dash

/-- The entry of a member is as high as the link to it. -/
theorem height_entry {member : Entity} (shown : member.docComment.Presentable) :
    height (Page.entry member).text = height (Markdown.link member.name member.id) := by
  simp only [Page.entry]
  split
  · rfl
  · rw [String.append_assoc]
    exact height_append shown.summary.after_dash

/-- Every element of the list of references is one line. -/
theorem oneLine_seeAlso (shown : doc.Presentable) :
    ∀ line ∈ Markdown.toLines (Prose.titledList "**See also**" doc.seeAlso), OneLine line := by
  intro line member
  rw [Prose.titledList] at member
  split at member
  · cases member
  · have parts : line ∈ ["**See also**", ""] ++ doc.seeAlso.map ("- " ++ ·) ++ [""] := by
      rw [← listLines_of_texts]
      exact member
    simp only [List.mem_append, List.mem_map, List.mem_cons, List.not_mem_nil, or_false] at parts
    rcases parts with ((rfl | rfl) | ⟨text, listed, rfl⟩) | rfl
    · simp [OneLine]
    · simp [OneLine]
    · rw [OneLine, String.toList_append, List.mem_append, not_or]
      exact ⟨by decide, (shown.seeAlso text listed).2⟩
    · simp [OneLine]

/-- No line of an example ends the block of code that it is put in. -/
theorem unfenced_examples (shown : doc.Presentable) {language : String} {code : List String}
    (member : .code language code ∈ Prose.examples doc.examples) :
    ∀ line ∈ code, isFence line.toList = false := by
  rw [Prose.examples] at member
  split at member
  · cases member
  · simp only [List.mem_cons, reduceCtorEq, false_or, List.mem_map] at member
    obtain ⟨text, listed, same⟩ := member
    cases same
    exact shown.unfenced_lines listed

end Presentable

/-- Every comment can be shown: what it says fits into list entries, into paragraphs and between
fences. Entries get no line from a comment, and no example ends the block of code that it is put
in. -/
theorem parsed_comment_can_be_shown (source : String) :
    (parse source).Presentable ∧
      (∀ line ∈ Markdown.toLines (Prose.titledList "**See also**" (parse source).seeAlso),
        OneLine line) ∧
      (∀ parameter used, height (Prose.parameterItem (parse source) parameter used).1 =
        height (Prose.parameterItem empty parameter used).1) ∧
      (∀ member : Entity, height (Page.entry { member with doc := some source }).text =
        height (Markdown.link member.name member.id)) ∧
      ∀ language code, .code language code ∈ Prose.examples (parse source).examples →
        ∀ line ∈ code, isFence line.toList = false := by
  have shown := presentable_parse source
  refine ⟨shown, shown.oneLine_seeAlso, shown.height_parameterItem, fun member => ?_,
    fun _ _ => shown.unfenced_examples⟩
  have ofSource : { member with doc := some source }.docComment = parse source := rfl
  exact Presentable.height_entry (ofSource ▸ shown)

/-- A fence is left out wherever it stands in an example, and a reference to nothing is none. -/
example : (parse "@see\n@example\nlet a = 1\n  ```\nlet b = 2\n@see\n `fold`\n and `map`") =
    { empty with seeAlso := ["`fold` and `map`"], examples := ["let a = 1\nlet b = 2"] } := by
  decide +kernel

end DocComment

end ApiManual
