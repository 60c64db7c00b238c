import ApiManual.Proofs.DocComment.Examples
import Mathlib.Tactic.MkIffOfInductiveProp

/-!
# Writing documentation comments

A comment is written as its summary and its description, followed by one block for each thing that
it says besides.  What is written is read back, block by block, as long as every text of the
comment is one that reading can give: texts on a tag line are trimmed and on one line, and neither
descriptions nor code hold lines that begin with a tag.
-/

namespace ApiManual.DocComment

/-! ## Texts of comments -/

/-- Trimmed text on one line. -/
@[mk_iff]
structure IsPhrase (text : String) : Prop where
  trimmed : Text.trim text = text
  oneLine : '\n' ∉ text.toList

/-- Characters none of which is blank. -/
def Unspaced (word : List Char) : Prop := word.any Text.isBlank = false

instance (word : List Char) : Decidable (Unspaced word) := inferInstanceAs (Decidable (_ = false))

/-- Text without space. -/
@[mk_iff]
structure IsWord (text : String) : Prop where
  some : text ≠ ""
  unspaced : Unspaced text.toList

/-- What stands between the line feeds of a text. -/
def rows (text : String) : List String := (Text.pieces '\n' text.toList).map String.ofList

/-- Lines of prose: trimmed and without tags, the first and the last one not empty. -/
@[mk_iff]
structure IsDescription (text : String) : Prop where
  trimmed : ∀ row ∈ rows text, Text.trim row = row
  untagged : ∀ row ∈ rows text, row.toList.head? ≠ some '@'
  first : ∀ row ∈ (rows text).head?, row ≠ ""
  last : ∀ row ∈ (rows text).getLast?, row ≠ ""

/-- Lines of code, not all of them blank: no line end is part of a line, no line begins with a tag
or a fence, and the first and the last one are not empty. -/
@[mk_iff]
structure IsCode (text : String) : Prop where
  said : Text.isBlankText text = false
  noReturn : ∀ row ∈ rows text, row.toList.getLast? ≠ some '\r'
  untagged : ∀ row ∈ rows text, isTagLine row = false
  unfenced : ∀ row ∈ rows text, isFence row.toList = false
  first : ∀ row ∈ (rows text).head?, row ≠ ""
  last : ∀ row ∈ (rows text).getLast?, row ≠ ""

/-- A comment all of whose texts can be read. No parameter is described twice, and there is no
description without a summary. -/
@[mk_iff]
structure WellFormed (doc : DocComment) : Prop where
  summary : IsPhrase doc.summary
  summary_untagged : doc.summary.toList.head? ≠ some '@'
  summary_ne_empty : doc.description.isSome = true → doc.summary ≠ ""
  description : ∀ text ∈ doc.description, IsDescription text
  params_nodup : (doc.params.map (·.1)).Nodup
  params : ∀ param ∈ doc.params, IsWord param.1 ∧ IsPhrase param.2
  returns : ∀ text ∈ doc.returns, IsPhrase text
  deprecated : ∀ text ∈ doc.deprecated, IsPhrase text
  seeAlso : ∀ text ∈ doc.seeAlso, IsPhrase text ∧ text ≠ ""
  examples : ∀ text ∈ doc.examples, IsCode text

instance (text : String) : Decidable (IsPhrase text) := decidable_of_iff' _ (isPhrase_iff text)

instance (text : String) : Decidable (IsWord text) := decidable_of_iff' _ (isWord_iff text)

instance (text : String) : Decidable (IsDescription text) :=
  decidable_of_iff' _ (isDescription_iff text)

instance (text : String) : Decidable (IsCode text) := decidable_of_iff' _ (isCode_iff text)

instance (doc : DocComment) : Decidable doc.WellFormed := decidable_of_iff' _ (wellFormed_iff doc)

/-! ## Written comments -/

/-- The line that describes a parameter. -/
def paramLine (param : String × String) : String :=
  if param.2 = "" then "@param " ++ param.1 else "@param " ++ param.1 ++ " - " ++ param.2

/-- The lines before the first tag line. -/
def introductionLines (doc : DocComment) : List String :=
  (if doc.summary = "" then [] else [doc.summary]) ++
    match doc.description with
    | some text => "" :: rows text
    | none => []

/-- The lines of each block. -/
def blockLines (opening closing : FenceLine) (doc : DocComment) : List (List String) :=
  doc.params.map (fun param => [paramLine param]) ++
  doc.returns.toList.map (fun text => ["@returns " ++ text]) ++
  doc.deprecated.toList.map (fun text => ["@deprecated " ++ text]) ++
  (if doc.isBeta then [["@beta"]] else []) ++
  (if doc.isInternal then [["@internal"]] else []) ++
  doc.seeAlso.map (fun text => ["@see " ++ text]) ++
  doc.examples.map fun text => exampleLines opening closing (rows text)

/-- The lines of a comment, with all code between the given fences. -/
def toLines (opening closing : FenceLine) (doc : DocComment) : List String :=
  introductionLines doc ++ (blockLines opening closing doc).flatten

/-- The text of a comment. -/
def write (opening closing : FenceLine) (doc : DocComment) : String :=
  Text.joined "\n" (doc.toLines opening closing)

/-- What the blocks of a comment say, one by one. -/
def parts (doc : DocComment) : List DocComment :=
  doc.params.map (fun param => { empty with params := [param] }) ++
  doc.returns.toList.map (fun text => { empty with returns := some text }) ++
  doc.deprecated.toList.map (fun text => { empty with deprecated := some text }) ++
  (if doc.isBeta then [{ empty with isBeta := true }] else []) ++
  (if doc.isInternal then [{ empty with isInternal := true }] else []) ++
  doc.seeAlso.map (fun text => { empty with seeAlso := [text] }) ++
  doc.examples.map fun text => { empty with examples := [text] }

variable {text : String}

/-! ## Lines -/

theorem toList_of_trimmed (trimmed : Text.trim text = text) :
    Text.trimChars text.toList = text.toList := by
  have same := congrArg String.toList trimmed
  rwa [Text.trim, String.toList_ofList] at same

theorem IsPhrase.trimChars (phrase : IsPhrase text) : Text.trimChars text.toList = text.toList :=
  toList_of_trimmed phrase.trimmed

theorem isTagLine_of_trimmed (trimmed : Text.trim text = text) :
    isTagLine text = false ↔ text.toList.head? ≠ some '@' := by
  rw [isTagLine, trimmed, decide_eq_false_iff_not]

/-- A text that is not blank at its end does not end in a carriage return. -/
theorem ne_return_of_trimmed (trimmed : Text.trimChars text.toList = text.toList) :
    text.toList.getLast? ≠ some '\r' := by
  intro isReturn
  have kept := (Text.dropBoth_eq_self_iff.mp trimmed).2 '\r' isReturn
  exact absurd kept (by decide)

theorem IsPhrase.isLine (phrase : IsPhrase text) : Text.IsLine text.toList :=
  ⟨phrase.oneLine, ne_return_of_trimmed phrase.trimChars⟩

theorem IsPhrase.isLine_append {front : String} (phrase : IsPhrase text)
    (oneLine : '\n' ∉ front.toList) (noReturn : front.toList.getLast? ≠ some '\r') :
    Text.IsLine (front ++ text).toList := by
  rw [String.toList_append]
  refine ⟨List.not_mem_append oneLine phrase.oneLine, ?_⟩
  rw [List.getLast?_append]
  have noReturnInText := phrase.isLine.noReturn
  cases last : text.toList.getLast? with
  | none => rwa [Option.none_or]
  | some char => rwa [Option.some_or, ← last]

theorem Unspaced.isBlank_eq_false {word : List Char} (unspaced : Unspaced word) {char : Char}
    (member : char ∈ word) : Text.isBlank char = false :=
  Bool.eq_false_iff.mpr (List.any_eq_false.mp unspaced char member)

theorem unspaced_cons {char : Char} {word : List Char} (first : Text.isBlank char = false)
    (rest : Unspaced word) : Unspaced (char :: word) := by
  rw [Unspaced, List.any_cons, first, rest, Bool.or_self]

theorem trimChars_of_unspaced {word : List Char} (unspaced : Unspaced word) :
    Text.trimChars word = word :=
  Text.dropBoth_eq_self_iff.mpr
    ⟨fun _ isFirst => unspaced.isBlank_eq_false (List.mem_of_mem_head? isFirst),
      fun _ isLast => unspaced.isBlank_eq_false (List.mem_of_mem_getLast? isLast)⟩

theorem IsWord.isPhrase (word : IsWord text) : IsPhrase text where
  trimmed := by rw [Text.trim, trimChars_of_unspaced word.unspaced, String.ofList_toList]
  oneLine := fun member => absurd (word.unspaced.isBlank_eq_false member) (by decide)

theorem joined_rows (text : String) : Text.joined "\n" (rows text) = text := by
  apply String.toList_inj.mp
  rw [Text.joined, String.toList_intercalate, rows, List.map_map]
  simpa using Text.intercalate_pieces '\n' text.toList

theorem newline_not_mem_of_mem_rows {row : String} (member : row ∈ rows text) :
    '\n' ∉ row.toList := by
  obtain ⟨piece, cut, rfl⟩ := List.mem_map.mp member
  rw [String.toList_ofList]
  exact Text.not_mem_of_mem_pieces cut

/-! ## Tag lines -/

section

variable {word phrase : List Char}

theorem trimChars_append (front : List Char) {first : Char} (begins : front.head? = some first)
    (notBlank : Text.isBlank first = false) (some : phrase ≠ [])
    (trimmed : Text.trimChars phrase = phrase) :
    Text.trimChars (front ++ phrase) = front ++ phrase := by
  refine Text.dropBoth_eq_self_iff.mpr ⟨fun char isFirst => ?_, fun char isLast => ?_⟩
  · rw [List.head?_append, begins, Option.some_or, Option.mem_some_iff] at isFirst
    rwa [← isFirst]
  · refine (Text.dropBoth_eq_self_iff.mp trimmed).2 char ?_
    rwa [List.getLast?_append, List.getLast?_eq_some_getLast some, Option.some_or,
      ← List.getLast?_eq_some_getLast some] at isLast

/-- The first word ends at the first blank character, which is dropped. -/
theorem firstWord_append (unspaced : Unspaced word) {rest : List Char}
    (blank : ∀ char ∈ rest.head?, Text.isBlank char = true) :
    Text.firstWord (word ++ rest) = (word, rest.drop 1) := by
  have noBlank : ∀ char ∈ word, (!Text.isBlank char) = true := fun char member => by
    rw [unspaced.isBlank_eq_false member, Bool.not_false]
  rw [Text.firstWord, List.takeWhile_append_of_pos noBlank, List.dropWhile_append_of_pos noBlank]
  cases rest with
  | nil => simp
  | cons char later => simp [blank char rfl]

theorem firstWord_of_unspaced (unspaced : Unspaced word) :
    Text.firstWord word = (word, []) := by
  have cut : Text.firstWord (word ++ []) = (word, [].drop 1) := firstWord_append unspaced nofun
  rwa [List.append_nil] at cut

theorem firstWord_append_space (unspaced : Unspaced word) (rest : List Char) :
    Text.firstWord (word ++ ' ' :: rest) = (word, rest) :=
  firstWord_append unspaced fun _ isSpace => by cases isSpace; decide

theorem tagText?_of_trimmed {line rest : List Char} (trimmed : Text.trimChars line = '@' :: rest) :
    tagText? line = some rest := by
  simp [tagText?, trimmed]

/-- A word behind `@` is the tag of a line, and the phrase behind it the text that follows. -/
theorem tagText?_eq (unspaced : Unspaced word) (trimmed : Text.trimChars phrase = phrase) :
    ∃ text, tagText? ('@' :: (word ++ ' ' :: phrase)) = some text ∧
      Text.firstWord text = (word, phrase) := by
  have atStart : Text.isBlank '@' = false := by decide
  by_cases nothing : phrase = []
  · -- the space behind the word is dropped
    subst nothing
    have whole : Text.trimChars ('@' :: (word ++ [' '])) = '@' :: word :=
      (Text.dropBoth_concat (by decide) ('@' :: word)).trans
        (trimChars_of_unspaced (unspaced_cons atStart unspaced))
    exact ⟨word, tagText?_of_trimmed whole, firstWord_of_unspaced unspaced⟩
  · have whole : Text.trimChars ('@' :: (word ++ ' ' :: phrase)) =
        '@' :: (word ++ ' ' :: phrase) := by
      have cut := trimChars_append ('@' :: (word ++ [' '])) rfl atStart nothing trimmed
      rwa [List.cons_append, List.append_assoc, List.singleton_append] at cut
    exact ⟨word ++ ' ' :: phrase, tagText?_of_trimmed whole,
      firstWord_append_space unspaced phrase⟩

/-- A line with the tag of parameters opens the block of a parameter. -/
theorem opens_paramOpening (trimmed : Text.trimChars phrase = phrase) :
    (tagText? ('@' :: ("param".toList ++ ' ' :: phrase))).map tagOpening =
      some (paramOpening phrase) := by
  have unspaced : Unspaced "param".toList := by decide
  obtain ⟨behind, tagged, cut⟩ := tagText?_eq unspaced trimmed
  rw [tagged, Option.map_some]
  simp [tagOpening, cut, trimmed]

theorem paramOpening_of_unspaced (unspaced : Unspaced word) :
    paramOpening word = (.param (String.ofList word), []) := by
  have dashless : ['-', ' '].isPrefixOf? ([] : List Char) = none := rfl
  rw [paramOpening, firstWord_of_unspaced unspaced]
  simp [Text.trimChars, Text.dropBoth, dashless]

theorem paramOpening_dashed (unspaced : Unspaced word) (some : phrase ≠ [])
    (trimmed : Text.trimChars phrase = phrase) :
    paramOpening (word ++ ' ' :: '-' :: ' ' :: phrase) = (.param (String.ofList word), phrase) := by
  have dashed : Text.trimChars ('-' :: ' ' :: phrase) = '-' :: ' ' :: phrase :=
    trimChars_append ['-', ' '] rfl (by decide) some trimmed
  have found : ['-', ' '].isPrefixOf? ('-' :: ' ' :: phrase) = Option.some phrase :=
    List.isPrefixOf?_eq_some_iff_append_eq.mpr rfl
  rw [paramOpening, firstWord_append_space unspaced]
  simp [dashed, found]

end

/-- A line with a tag that is followed by prose opens a block with that prose. -/
theorem opens_prose {word : String} {tag : Tag}
    (unspaced : Unspaced word.toList)
    (named : ∀ phrase text, Text.firstWord text = (word.toList, phrase) →
      tagOpening text = (tag, Text.trimChars phrase)) (phrase : IsPhrase text) :
    (tagText? ("@" ++ word ++ " " ++ text).toList).map tagOpening = some (tag, text.toList) := by
  obtain ⟨behind, tagged, cut⟩ := tagText?_eq unspaced phrase.trimChars
  have letters : ("@" ++ word ++ " " ++ text).toList =
      '@' :: (word.toList ++ ' ' :: text.toList) := by
    simp
  rw [letters, tagged, Option.map_some, named _ _ cut, phrase.trimChars]

/-- The line of a parameter opens its block with what is said of it. -/
theorem opens_param {name : String} (word : IsWord name) (phrase : IsPhrase text) :
    (tagText? (paramLine (name, text)).toList).map tagOpening =
      some (.param name, text.toList) := by
  by_cases nothing : text = ""
  · subst nothing
    have letters : (paramLine (name, "")).toList =
        '@' :: ("param".toList ++ ' ' :: name.toList) := by
      simp [paramLine]
    rw [letters, opens_paramOpening (trimChars_of_unspaced word.unspaced),
      paramOpening_of_unspaced word.unspaced, String.ofList_toList]
    rfl
  · obtain ⟨first, later, begins⟩ : ∃ first later, name.toList = first :: later :=
      List.exists_cons_of_ne_nil (by simpa using word.some)
    have some : text.toList ≠ [] := by simpa using nothing
    have trimmed : Text.trimChars (name.toList ++ ' ' :: '-' :: ' ' :: text.toList) =
        name.toList ++ ' ' :: '-' :: ' ' :: text.toList := by
      have notBlank : Text.isBlank first = false :=
        word.unspaced.isBlank_eq_false (by simp [begins])
      have cut := trimChars_append (name.toList ++ [' ', '-', ' ']) (by simp [begins]) notBlank
        some phrase.trimChars
      rwa [List.append_assoc] at cut
    have letters : (paramLine (name, text)).toList =
        '@' :: ("param".toList ++ ' ' :: (name.toList ++ ' ' :: '-' :: ' ' :: text.toList)) := by
      simp [paramLine, nothing]
    rw [letters, opens_paramOpening trimmed,
      paramOpening_dashed word.unspaced some phrase.trimChars, String.ofList_toList]

/-! ## Blocks -/

/-- Blocks are written that say the given parts, one by one. -/
structure Write (blocks : List (List String)) (parts : List DocComment) : Prop where
  areBlocks : ∀ block ∈ blocks, IsBlock block
  areLines : ∀ block ∈ blocks, ∀ line ∈ block, Text.IsLine line.toList
  finished : blocks.map (fun block => (Reading.start.after block).finished) = parts

namespace Write

theorem nil : Write [] [] := ⟨by simp, by simp, rfl⟩

theorem append {first second : List (List String)} {said later : List DocComment}
    (left : Write first said) (right : Write second later) :
    Write (first ++ second) (said ++ later) where
  areBlocks := List.forall_mem_append.mpr ⟨left.areBlocks, right.areBlocks⟩
  areLines := List.forall_mem_append.mpr ⟨left.areLines, right.areLines⟩
  finished := by rw [List.map_append, left.finished, right.finished]

theorem map {α : Type} {values : List α} {lines : α → List String} {said : α → DocComment}
    (each : ∀ value ∈ values, Write [lines value] [said value]) :
    Write (values.map lines) (values.map said) := by
  induction values with
  | nil => exact nil
  | cons value rest ih =>
      rw [List.forall_mem_cons] at each
      exact each.1.append (ih each.2)

theorem flag {lines : List String} {said : DocComment} (block : Write [lines] [said])
    (flag : Bool) :
    Write (if flag then [lines] else []) (if flag then [said] else []) := by
  cases flag with
  | true => exact block
  | false => exact nil

/-- A block says what its tag line and the lines below say. -/
theorem single {first : String} {rest : List String} {tag : Tag} {opening : List Char}
    (opens : (tagText? first.toList).map tagOpening = some (tag, opening))
    (untagged : ∀ line ∈ rest, isTagLine line = false)
    (areLines : ∀ line ∈ first :: rest, Text.IsLine line.toList) :
    Write [first :: rest] [addBlock (mark empty tag)
      (tag.keptOpening opening ++ rest.flatMap fun line => tag.kept line.toList) tag] where
  areBlocks := by
    have tagged : isTagLine first = true := by
      cases noTag : isTagLine first with
      | true => rfl
      | false =>
          rw [tagText?_eq_none_iff.mpr noTag] at opens
          cases opens
    exact List.forall_mem_singleton.mpr (.intro tagged untagged)
  areLines := List.forall_mem_singleton.mpr areLines
  finished := by rw [List.map_singleton, Reading.finished_after_opened opens untagged]

end Write

theorem prose_piece (text : String) : prose (piece text.toList) = text := by
  by_cases nothing : text = ""
  · subst nothing
    rfl
  · simp [piece, prose, nothing, Text.joined]

/-- A block with a tag that is followed by prose says that prose. -/
theorem write_prose (word : String) (tag : Tag)
    (unspaced : Unspaced word.toList)
    (named : ∀ phrase text, Text.firstWord text = (word.toList, phrase) →
      tagOpening text = (tag, Text.trimChars phrase))
    (kept : ∀ opening, tag.keptOpening opening = piece opening) (phrase : IsPhrase text) :
    Write [["@" ++ word ++ " " ++ text]] [addBlock (mark empty tag) (piece text.toList) tag] := by
  have oneLine : '\n' ∉ ("@" ++ word ++ " ").toList := by
    have inWord : '\n' ∉ word.toList := fun member =>
      absurd (unspaced.isBlank_eq_false member) (by decide)
    simp [inWord]
  have isLine : Text.IsLine ("@" ++ word ++ " " ++ text).toList :=
    phrase.isLine_append oneLine (by simp [List.getLast?_cons])
  have block := Write.single (opens_prose unspaced named phrase) (List.forall_mem_nil _)
    (List.forall_mem_singleton.mpr isLine)
  rwa [List.flatMap_nil, List.append_nil, kept] at block

theorem write_param {param : String × String} (word : IsWord param.1) (phrase : IsPhrase param.2) :
    Write [[paramLine param]] [{ empty with params := [param] }] := by
  obtain ⟨name, description⟩ := param
  have isLine : Text.IsLine (paramLine (name, description)).toList := by
    rw [paramLine]
    split
    · exact word.isPhrase.isLine_append (by decide) (by decide)
    · exact phrase.isLine_append (by simp [word.isPhrase.oneLine])
        (by simp [List.getLast?_cons, List.getLast?_append])
  have block := Write.single (opens_param word phrase) (List.forall_mem_nil _)
    (List.forall_mem_singleton.mpr isLine)
  simpa [addBlock, mark, Tag.keptOpening, prose_piece, Entries.put, empty] using block

theorem write_returns (phrase : IsPhrase text) :
    Write [["@returns " ++ text]] [{ empty with returns := some text }] := by
  have block := write_prose "returns" .returns (by decide)
    (fun behind line cut => by simp [tagOpening, cut]) (fun _ => rfl) phrase
  simpa [addBlock, mark, prose_piece, empty] using block

theorem write_deprecated (phrase : IsPhrase text) :
    Write [["@deprecated " ++ text]] [{ empty with deprecated := some text }] := by
  have block := write_prose "deprecated" .deprecated (by decide)
    (fun behind line cut => by simp [tagOpening, cut]) (fun _ => rfl) phrase
  simpa [addBlock, mark, prose_piece, empty] using block

theorem write_see (phrase : IsPhrase text) (some : text ≠ "") :
    Write [["@see " ++ text]] [{ empty with seeAlso := [text] }] := by
  have block := write_prose "see" .see (by decide)
    (fun behind line cut => by simp [tagOpening, cut]) (fun _ => rfl) phrase
  have kept : (piece text.toList).isEmpty = false := by simp [piece, some]
  simpa [addBlock, mark, prose_piece, kept, empty] using block

/-- A tag that says all on its own line sets its mark. -/
theorem write_mark {line : String} (tag : Tag) (isLine : Text.IsLine line.toList)
    (opens : (tagText? line.toList).map tagOpening = some (tag, []))
    (silent : tag.keptOpening [] = []) (said : addBlock (mark empty tag) [] tag = mark empty tag) :
    Write [[line]] [mark empty tag] := by
  have block := Write.single opens (List.forall_mem_nil _) (List.forall_mem_singleton.mpr isLine)
  rwa [List.flatMap_nil, List.append_nil, silent, said] at block

theorem write_example (opening closing : FenceLine) (code : IsCode text) :
    Write [exampleLines opening closing (rows text)] [{ empty with examples := [text] }] where
  areBlocks := by
    refine List.forall_mem_singleton.mpr (.intro (by decide) ?_)
    rw [List.forall_mem_cons, List.forall_mem_append, List.forall_mem_singleton]
    exact ⟨opening.untagged, code.untagged, closing.untagged⟩
  areLines := List.forall_mem_singleton.mpr <| isLine_of_mem_exampleLines fun row member =>
    ⟨newline_not_mem_of_mem_rows member, code.noReturn row member⟩
  finished := by
    have said := code.said
    rw [← joined_rows text] at said
    rw [List.map_singleton, finished_after_exampleLines
      (fun row member => ⟨newline_not_mem_of_mem_rows member, code.unfenced row member⟩)
      code.untagged said code.first code.last, joined_rows]

/-- The blocks of a comment say its parts. -/
theorem WellFormed.write_blockLines {doc : DocComment} (wellFormed : doc.WellFormed)
    (opening closing : FenceLine) : Write (blockLines opening closing doc) (parts doc) := by
  have params := Write.map fun param member =>
    write_param (wellFormed.params param member).1 (wellFormed.params param member).2
  have returns := Write.map fun text member =>
    write_returns (wellFormed.returns text (Option.mem_toList.mp member))
  have deprecated := Write.map fun text member =>
    write_deprecated (wellFormed.deprecated text (Option.mem_toList.mp member))
  have beta : Write [["@beta"]] [{ empty with isBeta := true }] :=
    write_mark .beta (by decide) (by decide) rfl rfl
  have internal : Write [["@internal"]] [{ empty with isInternal := true }] :=
    write_mark .internal (by decide) (by decide) rfl rfl
  have seeAlso := Write.map fun text member =>
    write_see (wellFormed.seeAlso text member).1 (wellFormed.seeAlso text member).2
  have examples := Write.map fun text member =>
    write_example opening closing (wellFormed.examples text member)
  exact (((((params.append returns).append deprecated).append (beta.flag _)).append
    (internal.flag _)).append seeAlso).append examples

/-! ## The introduction -/

theorem after_description {reading : Reading} {lines : List String}
    (inside : reading.place = .description) (trimmed : ∀ line ∈ lines, Text.trim line = line)
    (untagged : ∀ line ∈ lines, isTagLine line = false) :
    reading.after lines =
      { reading with description := reading.description ++ lines.map String.toList } := by
  induction lines generalizing reading with
  | nil => simp [Reading.after]
  | cons line rest ih =>
      rw [List.forall_mem_cons] at trimmed untagged
      have same : Text.trimChars line.toList = line.toList := toList_of_trimmed trimmed.1
      have read : reading.step line.toList =
          { reading with description := reading.description ++ [line.toList] } := by
        simp only [Reading.step, tagText?_eq_none_iff.mpr untagged.1, Reading.continued, inside,
          same]
      have still : (reading.step line.toList).place = .description := by
        rw [read]
        exact inside
      rw [Reading.after, List.foldl_cons, ← Reading.after, ih still trimmed.2 untagged.2, read,
        List.map_cons, List.append_assoc, List.singleton_append]

theorem WellFormed.isLine_of_mem_introductionLines {doc : DocComment}
    (wellFormed : doc.WellFormed) :
    ∀ line ∈ introductionLines doc, Text.IsLine line.toList := by
  intro line member
  rcases List.mem_append.mp member with inSummary | inDescription
  · split at inSummary
    · cases inSummary
    · rw [List.mem_singleton.mp inSummary]
      exact wellFormed.summary.isLine
  · split at inDescription
    · next text described =>
        rcases List.mem_cons.mp inDescription with rfl | row
        · decide
        · have trimmed := (wellFormed.description text described).trimmed line row
          exact ⟨newline_not_mem_of_mem_rows row, ne_return_of_trimmed (toList_of_trimmed trimmed)⟩
    · cases inDescription

/-- A description is kept as a whole. -/
theorem IsDescription.trim_eq (isDescription : IsDescription text) : Text.trim text = text := by
  have ends (row : String) (member : row ∈ rows text) :=
    Text.dropBoth_eq_self_iff.mp (toList_of_trimmed (isDescription.trimmed row member))
  have kept : Text.dropBoth Text.isBlank (Text.joined "\n" (rows text)).toList =
      (Text.joined "\n" (rows text)).toList :=
    Text.dropBoth_joined
      (fun row isFirst =>
        ⟨isDescription.first row isFirst, (ends row (List.mem_of_mem_head? isFirst)).1⟩)
      (fun row isLast =>
        ⟨isDescription.last row isLast, (ends row (List.mem_of_mem_getLast? isLast)).2⟩)
  rw [joined_rows] at kept
  rw [Text.trim, Text.trimChars, kept, String.ofList_toList]

theorem IsDescription.ne_empty (isDescription : IsDescription text) : text ≠ "" := by
  rintro rfl
  exact isDescription.first "" (by decide) rfl

/-- The first line that is not empty is the summary. -/
theorem step_summary (phrase : IsPhrase text) (untagged : isTagLine text = false)
    (some : text ≠ "") :
    Reading.start.step text.toList = { Reading.start with summary := [text.toList] } := by
  have letters : text.toList ≠ [] := by simpa using some
  simp [Reading.step, tagText?_eq_none_iff.mpr untagged, Reading.continued, Reading.start,
    phrase.trimChars, letters]

/-- What follows the summary and an empty line is the description. -/
theorem finished_after_description {summary : String} (isDescription : IsDescription text) :
    ({ Reading.start with summary := [summary.toList] }.after ("" :: rows text)).finished =
      { empty with summary := summary, description := some text } := by
  have opened : { Reading.start with summary := [summary.toList] }.step "".toList =
      { Reading.start with place := .description, summary := [summary.toList] } := rfl
  have untagged : ∀ row ∈ rows text, isTagLine row = false := fun row member =>
    (isTagLine_of_trimmed (isDescription.trimmed row member)).mpr
      (isDescription.untagged row member)
  have whole : Text.joined "\n" (((rows text).map String.toList).map String.ofList) = text := by
    simpa [Function.comp_def] using joined_rows text
  rw [Reading.after, List.foldl_cons, opened, ← Reading.after,
    after_description rfl isDescription.trimmed untagged]
  simp only [Reading.finished, Reading.closed, Reading.start, List.nil_append, whole,
    isDescription.trim_eq, isDescription.ne_empty, if_false]
  simp [Text.joined]

/-- Before its blocks, a comment says its summary and its description. -/
theorem WellFormed.finished_after_introductionLines {doc : DocComment}
    (wellFormed : doc.WellFormed) :
    (Reading.start.after (introductionLines doc)).finished =
      { empty with summary := doc.summary, description := doc.description } := by
  have untagged : isTagLine doc.summary = false :=
    (isTagLine_of_trimmed wellFormed.summary.trimmed).mpr wellFormed.summary_untagged
  by_cases nothing : doc.summary = ""
  · have noDescription : doc.description = none := by
      cases described : doc.description with
      | none => rfl
      | some text => exact absurd nothing (wellFormed.summary_ne_empty (by rw [described]; rfl))
    rw [introductionLines, nothing, noDescription]
    rfl
  · rw [introductionLines, if_neg nothing, List.singleton_append, Reading.after, List.foldl_cons,
      ← Reading.after, step_summary wellFormed.summary untagged nothing]
    cases described : doc.description with
    | none =>
        simp [Reading.after, Reading.finished, Reading.closed, Reading.start, Text.joined,
          Text.trim, Text.trimChars, Text.dropBoth]
    | some text => exact finished_after_description (wellFormed.description text described)

/-! ## Reading what is written -/

theorem flatMap_nothing {α β : Type} (values : List α) :
    (values.flatMap fun _ => ([] : List β)) = [] :=
  List.flatMap_eq_nil_iff.mpr fun _ _ => rfl

/-- What the parts of a comment say together is what it says. -/
theorem foldl_parts {doc : DocComment} (nodup : (doc.params.map (·.1)).Nodup) :
    (parts doc).foldl followedBy
      { empty with summary := doc.summary, description := doc.description } = doc := by
  rw [foldl_followedBy]
  obtain ⟨summary, description, params, returns, deprecated, isBeta, isInternal, seeAlso,
    examples⟩ := doc
  have inOrder : Entries.putAll [] params = params := Entries.putAll_of_nodup nodup
  cases isBeta <;> cases isInternal <;> cases returns <;> cases deprecated <;>
    simp [parts, empty, List.flatMap_map, List.filterMap_map, Function.comp_def, flatMap_nothing,
      inOrder]

/-- A well-formed comment is read as it was written. -/
theorem parse_write {doc : DocComment} (wellFormed : doc.WellFormed)
    (opening closing : FenceLine) : parse (doc.write opening closing) = doc := by
  have blocks := wellFormed.write_blockLines opening closing
  have areLines : ∀ line ∈ doc.toLines opening closing, Text.IsLine line.toList := by
    rw [toLines, List.forall_mem_append]
    refine ⟨wellFormed.isLine_of_mem_introductionLines, fun line member => ?_⟩
    obtain ⟨block, written, inside⟩ := List.mem_flatten.mp member
    exact blocks.areLines block written line inside
  calc
    parse (doc.write opening closing) =
        (Reading.start.after (doc.toLines opening closing)).finished :=
      ofLines_eq_finished areLines
    _ = (parts doc).foldl followedBy
          { empty with summary := doc.summary, description := doc.description } := by
      rw [toLines, Reading.after_append, Reading.finished_after_blocks blocks.areBlocks,
        blocks.finished, wellFormed.finished_after_introductionLines]
    _ = doc := foldl_parts wellFormed.params_nodup

/-- A comment on a parcel. One parameter is not described, and the description of the other begins
with a dash of its own; nothing is said of the result but that there is one. -/
def parcel : DocComment where
  summary := "Sends a parcel."
  description := some "By post.\n\nAsk post@home."
  params := [("to", ""), ("weight", "- in grams - at most")]
  returns := some ""
  deprecated := some "Use `mail`."
  isBeta := true
  isInternal := false
  seeAlso := ["mail"]
  examples := ["send(you)\n\n    .then(wait)", "  done()"]

theorem parse_write_parcel :
    parcel.WellFormed ∧
    parcel.toLines .typescript .plain =
      ["Sends a parcel.", "", "By post.", "", "Ask post@home.", "@param to",
        "@param weight - - in grams - at most", "@returns ", "@deprecated Use `mail`.", "@beta",
        "@see mail", "@example", "```typescript", "send(you)", "", "    .then(wait)", "```",
        "@example", "```typescript", "  done()", "```"] ∧
    parse (parcel.write .typescript .plain) = parcel := by
  have wellFormed : parcel.WellFormed := by decide +kernel
  exact ⟨wellFormed, by decide +kernel, parse_write wellFormed .typescript .plain⟩

end ApiManual.DocComment
