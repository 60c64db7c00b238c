import ApiManual.DocComment
import ApiManual.Proofs.Entries.LastValues
import ApiManual.Proofs.Text.Lines

/-!
# Blocks of documentation comments

A comment is read with one block open at a time, and what is read into that block is kept
beside what the blocks before it said.  Reading a block therefore does the same from any
reading: it opens with the same tag and keeps the same lines.  So a comment says what its lines
before the first tag line say by themselves, followed by what each of its blocks says by itself.
-/

namespace ApiManual.DocComment

/-! ## Cutting at tag lines -/

/-- Whether a line, but for the space before it, begins with a tag. -/
def isTagLine (line : String) : Bool :=
  (Text.trim line).toList.head? = some '@'

/-- The lines before the first tag line, and blocks that each consist of a tag line and the lines
up to the next one. -/
def cut : List String → List String × List (List String)
  | [] => ([], [])
  | line :: rest =>
      let (untagged, blocks) := cut rest
      if isTagLine line then ([], (line :: untagged) :: blocks)
      else (line :: untagged, blocks)

/-- A tag line and lines without tags. -/
inductive IsBlock : List String → Prop where
  | intro {first : String} {rest : List String} (tagged : isTagLine first = true)
      (untagged : ∀ line ∈ rest, isTagLine line = false) : IsBlock (first :: rest)

theorem cut_flatten (lines : List String) : (cut lines).1 ++ (cut lines).2.flatten = lines := by
  induction lines with
  | nil => rfl
  | cons line rest ih =>
      simp only [cut]
      split
      · rw [List.nil_append, List.flatten_cons, List.cons_append, ih]
      · rw [List.cons_append, ih]

theorem untagged_of_mem_cut {lines : List String} {line : String} (member : line ∈ (cut lines).1) :
    isTagLine line = false := by
  induction lines with
  | nil => cases member
  | cons first rest ih =>
      simp only [cut] at member
      split at member
      · cases member
      · next untagged =>
          rcases List.mem_cons.mp member with rfl | later
          · exact Bool.eq_false_iff.mpr untagged
          · exact ih later

theorem isBlock_of_mem_cut {lines : List String} {block : List String}
    (member : block ∈ (cut lines).2) : IsBlock block := by
  induction lines with
  | nil => cases member
  | cons first rest ih =>
      simp only [cut] at member
      split at member
      · next tagged =>
          rcases List.mem_cons.mp member with rfl | later
          · exact .intro tagged fun line inside => untagged_of_mem_cut inside
          · exact ih later
      · exact ih member

theorem forall_mem_cut {holds : String → Prop} {lines : List String}
    (each : ∀ line ∈ lines, holds line) :
    (∀ line ∈ (cut lines).1, holds line) ∧
      ∀ block ∈ (cut lines).2, ∀ line ∈ block, holds line := by
  rw [← cut_flatten lines, List.forall_mem_append] at each
  exact ⟨each.1, fun block member line inside =>
    each.2 line (List.mem_flatten_of_mem member inside)⟩

/-! ## Comments that follow one another -/

/-- A comment with what the blocks of a later one say. -/
def followedBy (doc later : DocComment) : DocComment where
  summary := doc.summary
  description := doc.description
  params := Entries.putAll doc.params later.params
  returns := later.returns.or doc.returns
  deprecated := later.deprecated.or doc.deprecated
  isBeta := doc.isBeta || later.isBeta
  isInternal := doc.isInternal || later.isInternal
  seeAlso := doc.seeAlso ++ later.seeAlso
  examples := doc.examples ++ later.examples

/-- What a block adds to a comment is what it says by itself. -/
theorem addBlock_mark (doc : DocComment) (kept : List (List Char)) (tag : Tag) :
    addBlock (mark doc tag) kept tag = doc.followedBy (addBlock (mark empty tag) kept tag) := by
  cases tag with
  | param name => simp [mark, addBlock, followedBy, empty, Entries.putAll, Entries.put]
  | see | «example» =>
      simp only [mark, addBlock]
      split <;> simp [followedBy, empty, Entries.putAll]
  | returns | deprecated | beta | internal | other =>
      simp [mark, addBlock, followedBy, empty, Entries.putAll]

theorem getLast?_filterMap_cons_or {α β : Type} (said : α → Option β) (first : α) (rest : List α)
    (before : Option β) :
    ((first :: rest).filterMap said).getLast?.or before =
      (rest.filterMap said).getLast?.or ((said first).or before) := by
  rw [List.filterMap_cons]
  cases said first with
  | none => rfl
  | some value =>
      rw [List.getLast?_cons]
      cases (rest.filterMap said).getLast? <;> rfl

/-- Of parameters, results and warnings the last word counts, marks stay, and all else is kept in
order. -/
theorem foldl_followedBy (doc : DocComment) (parts : List DocComment) :
    parts.foldl followedBy doc = {
      summary := doc.summary
      description := doc.description
      params := Entries.putAll doc.params (parts.flatMap (·.params))
      returns := (parts.filterMap (·.returns)).getLast?.or doc.returns
      deprecated := (parts.filterMap (·.deprecated)).getLast?.or doc.deprecated
      isBeta := doc.isBeta || parts.any (·.isBeta)
      isInternal := doc.isInternal || parts.any (·.isInternal)
      seeAlso := doc.seeAlso ++ parts.flatMap (·.seeAlso)
      examples := doc.examples ++ parts.flatMap (·.examples) } := by
  induction parts generalizing doc with
  | nil => simp [Entries.putAll]
  | cons first rest ih =>
      rw [List.foldl_cons, ih]
      simp only [followedBy, getLast?_filterMap_cons_or, List.flatMap_cons, List.any_cons,
        Entries.putAll_append, List.append_assoc, Bool.or_assoc]

/-! ## Reading lines -/

theorem tagText?_eq_none_iff {line : String} :
    tagText? line.toList = none ↔ isTagLine line = false := by
  simp only [tagText?, isTagLine, Text.trim, String.toList_ofList]
  split
  · next rest trimmed => simp [trimmed]
  · next other =>
      cases trimmed : Text.trimChars line.toList with
      | nil => simp
      | cons first rest =>
          have differs : first ≠ '@' := fun equal => other rest (equal ▸ trimmed)
          simp [differs]

theorem code_concat_nil (kept : List (List Char)) : code (kept ++ [[]]) = code kept := by
  rw [code, code, List.map_append]
  exact congrArg String.ofList (Text.dropBoth_joined_concat (by decide) _)

/-- No block keeps an empty last line. -/
theorem addBlock_kept_nil (doc : DocComment) (kept : List (List Char)) (tag : Tag) :
    addBlock doc (kept ++ tag.kept []) tag = addBlock doc kept tag := by
  cases tag with
  | «example» =>
      have keptLine : Tag.kept [] .example = [[]] := rfl
      rw [keptLine, addBlock, addBlock, code_concat_nil]
  | param | returns | deprecated | see | beta | internal | other =>
      exact congrArg (addBlock doc · _) (List.append_nil kept)

namespace Reading

variable {reading : Reading}

/-- Takes lines one after the other. -/
def after (reading : Reading) (lines : List String) : Reading :=
  lines.foldl (fun reading line => reading.step line.toList) reading

theorem after_append (reading : Reading) (first second : List String) :
    reading.after (first ++ second) = (reading.after first).after second :=
  List.foldl_append

/-- An empty last line makes no difference. -/
theorem finished_step_nil (reading : Reading) : (reading.step []).finished = reading.finished := by
  obtain ⟨doc, place, kept, summary, description⟩ := reading
  cases place with
  | summary => cases summary <;> rfl
  | description =>
      have read : step ⟨doc, .description, kept, summary, description⟩ [] =
          ⟨doc, .description, kept, summary, description ++ [[]]⟩ := rfl
      have same : Text.trim (Text.joined "\n" ((description ++ [[]]).map String.ofList)) =
          Text.trim (Text.joined "\n" (description.map String.ofList)) := by
        rw [List.map_append]
        exact congrArg String.ofList (Text.dropBoth_joined_concat (by decide) _)
      simp only [read, finished, closed, same]
  | block tag =>
      have read : step ⟨doc, .block tag, kept, summary, description⟩ [] =
          ⟨doc, .block tag, kept ++ tag.kept [], summary, description⟩ := rfl
      simp only [read, finished, closed, addBlock_kept_nil]

/-! ### Before the first tag line -/

/-- No block has been opened. -/
structure Untagged (reading : Reading) : Prop where
  doc : reading.doc = empty
  place : reading.place = .summary ∨ reading.place = .description

theorem Untagged.step (before : reading.Untagged) {line : String}
    (untagged : isTagLine line = false) : (reading.step line.toList).Untagged := by
  have noTag : tagText? line.toList = none := tagText?_eq_none_iff.mpr untagged
  simp only [Reading.step, noTag, continued]
  rcases before.place with summary | description
  · simp only [summary]
    split
    · exact ⟨before.doc, .inl rfl⟩
    · split
      · exact before
      · exact ⟨before.doc, .inr rfl⟩
  · simp only [description]
    exact ⟨before.doc, .inr rfl⟩

theorem Untagged.after {lines : List String} (before : reading.Untagged)
    (untagged : ∀ line ∈ lines, isTagLine line = false) : (reading.after lines).Untagged := by
  induction lines generalizing reading with
  | nil => exact before
  | cons line rest ih =>
      rw [List.forall_mem_cons] at untagged
      exact ih (before.step untagged.1) untagged.2

/-- Before the first block a comment says nothing but its summary and its description. -/
theorem Untagged.finished (before : reading.Untagged) :
    reading.finished = { empty with
      summary := reading.finished.summary, description := reading.finished.description } := by
  have nothing : reading.closed = empty := by
    rcases before.place with summary | description
    · rw [closed, summary]
      exact before.doc
    · rw [closed, description]
      exact before.doc
  rw [Reading.finished, nothing]

/-! ### Block by block -/

/-- Lines without tags only add to the open block. -/
theorem after_untagged {tag : Tag} {lines : List String} (block : reading.place = .block tag)
    (untagged : ∀ line ∈ lines, isTagLine line = false) :
    reading.after lines = { reading with
      kept := reading.kept ++ lines.flatMap fun line => tag.kept line.toList } := by
  induction lines generalizing reading with
  | nil => simp [after]
  | cons line rest ih =>
      rw [List.forall_mem_cons] at untagged
      have read : reading.step line.toList =
          { reading with kept := reading.kept ++ tag.kept line.toList } := by
        simp only [step, tagText?_eq_none_iff.mpr untagged.1, continued, block]
      have still : (reading.step line.toList).place = .block tag := by
        rw [read]
        exact block
      rw [after, List.foldl_cons, ← after, ih still untagged.2, read, List.flatMap_cons,
        List.append_assoc]

/-- A tag line ends the block before it, and lines without tags only add to the one it opens. -/
theorem after_opened {first : String} {rest : List String} {tag : Tag} {opening : List Char}
    (opens : (tagText? first.toList).map tagOpening = some (tag, opening))
    (untagged : ∀ line ∈ rest, isTagLine line = false) (reading : Reading) :
    reading.after (first :: rest) = { reading with
      doc := mark reading.closed tag
      place := .block tag
      kept := tag.keptOpening opening ++ rest.flatMap fun line => tag.kept line.toList } := by
  obtain ⟨text, found, opened⟩ := Option.map_eq_some_iff.mp opens
  have read : reading.step first.toList = reading.opened tag opening := by
    simp only [step, found, opened]
  rw [after, List.foldl_cons, ← after, read]
  exact after_untagged rfl untagged

/-- A block says by itself what it keeps, under its tag. -/
theorem finished_after_opened {first : String} {rest : List String} {tag : Tag}
    {opening : List Char} (opens : (tagText? first.toList).map tagOpening = some (tag, opening))
    (untagged : ∀ line ∈ rest, isTagLine line = false) :
    (start.after (first :: rest)).finished = addBlock (mark empty tag)
      (tag.keptOpening opening ++ rest.flatMap fun line => tag.kept line.toList) tag := by
  rw [after_opened opens untagged]
  generalize tag.keptOpening opening ++ rest.flatMap (fun line => tag.kept line.toList) = kept
  calc
    _ = { addBlock (mark empty tag) kept tag with summary := "", description := none } := rfl
    _ = addBlock (mark empty tag) kept tag := by
      cases tag with
      | see | «example» =>
          simp only [addBlock]
          split <;> rfl
      | param | returns | deprecated | beta | internal | other => rfl

theorem opens_of_isBlock {block : List String} (isBlock : IsBlock block) :
    ∃ first rest tag opening, block = first :: rest ∧
      (tagText? first.toList).map tagOpening = some (tag, opening) ∧
      ∀ line ∈ rest, isTagLine line = false := by
  obtain @⟨first, rest, tagged, untagged⟩ := isBlock
  cases found : tagText? first.toList with
  | none =>
      rw [tagText?_eq_none_iff.mp found] at tagged
      cases tagged
  | some text =>
      exact ⟨first, rest, (tagOpening text).1, (tagOpening text).2, rfl,
        by rw [found, Option.map_some], untagged⟩

/-- What is read of a block does not depend on what was read before. -/
theorem after_block {block : List String} (isBlock : IsBlock block) :
    ∃ tag kept, ∀ reading : Reading, reading.after block = { reading with
      doc := mark reading.closed tag, place := .block tag, kept := kept } := by
  obtain ⟨first, rest, tag, opening, rfl, opens, untagged⟩ := opens_of_isBlock isBlock
  exact ⟨tag, _, after_opened opens untagged⟩

/-- Reading a block adds what it says by itself. -/
theorem finished_after_block {block : List String} (isBlock : IsBlock block) (reading : Reading) :
    (reading.after block).finished =
      reading.finished.followedBy (start.after block).finished := by
  obtain ⟨tag, kept, read⟩ := after_block isBlock
  have said : ∀ reading : Reading, (reading.after block).closed =
      addBlock (mark reading.closed tag) kept tag := by
    intro reading
    rw [read]
    rfl
  have summary : (reading.after block).summary = reading.summary := by rw [read]
  have description : (reading.after block).description = reading.description := by rw [read]
  rw [finished, said, addBlock_mark, summary, description]
  simp only [finished, said]
  rfl

theorem finished_after_blocks {blocks : List (List String)}
    (areBlocks : ∀ block ∈ blocks, IsBlock block) (reading : Reading) :
    (reading.after blocks.flatten).finished =
      (blocks.map fun block => (start.after block).finished).foldl followedBy
        reading.finished := by
  induction blocks generalizing reading with
  | nil => rfl
  | cons block rest ih =>
      rw [List.forall_mem_cons] at areBlocks
      rw [List.flatten_cons, after_append, ih areBlocks.2, finished_after_block areBlocks.1,
        List.map_cons, List.foldl_cons]

end Reading

/-! ## Parsing -/

/-- The comment that consists of lines. -/
def ofLines (lines : List String) : DocComment := parse (Text.joined "\n" lines)

theorem ofLines_eq_finished {lines : List String}
    (each : ∀ line ∈ lines, Text.IsLine line.toList) :
    ofLines lines = (Reading.start.after lines).finished := by
  have areLines : ∀ line ∈ lines.map String.toList, Text.IsLine line := List.forall_mem_map.mpr each
  have joined : (Text.joined "\n" lines).toList =
      ['\n'].intercalate (lines.map String.toList) := String.toList_intercalate
  have read : Reading.start.after lines =
      (lines.map String.toList).foldl Reading.step .start := (List.foldl_map).symm
  rw [ofLines, parse, joined, read]
  -- the text does not show whether the last line is empty
  rcases Text.linesOf_intercalate areLines with whole | whole
  · rw [← whole]
  · conv_rhs => rw [whole, List.foldl_append]
    exact (Reading.finished_step_nil _).symm

/-- A comment says what the lines before its first tag line say by themselves, followed by what
its blocks say by themselves. -/
theorem ofLines_eq_foldl_followedBy {lines : List String}
    (each : ∀ line ∈ lines, Text.IsLine line.toList) :
    ofLines lines = ((cut lines).2.map ofLines).foldl followedBy (ofLines (cut lines).1) := by
  have parts := forall_mem_cut each
  have blocks : (cut lines).2.map ofLines =
      (cut lines).2.map fun block => (Reading.start.after block).finished :=
    List.map_congr_left fun block member => ofLines_eq_finished (parts.2 block member)
  calc
    ofLines lines = (Reading.start.after lines).finished := ofLines_eq_finished each
    _ = ((Reading.start.after (cut lines).1).after (cut lines).2.flatten).finished := by
      rw [← Reading.after_append, cut_flatten]
    _ = ((cut lines).2.map ofLines).foldl followedBy (ofLines (cut lines).1) := by
      rw [Reading.finished_after_blocks fun block member => isBlock_of_mem_cut member, blocks,
        ofLines_eq_finished parts.1]

/-- A comment without tags has a summary and a description at most. -/
theorem ofLines_of_untagged {lines : List String} (each : ∀ line ∈ lines, Text.IsLine line.toList)
    (untagged : ∀ line ∈ lines, isTagLine line = false) :
    ofLines lines = { empty with
      summary := (ofLines lines).summary, description := (ofLines lines).description } := by
  have before : (Reading.start.after lines).Untagged := .after ⟨rfl, .inl rfl⟩ untagged
  rw [ofLines_eq_finished each]
  exact before.finished

/-- Each block of a comment says the same as it does by itself, and nothing before it or after it
makes a difference. The summary and the description are those of the lines before the first tag
line. Parameters keep the places at which they are first described and are described as they are
last. Of results and deprecations the last block that has one counts, and marks stay. Other blocks
add to those before them. -/
theorem blocks_are_independent {lines : List String}
    (each : ∀ line ∈ lines, Text.IsLine line.toList) :
    let untagged := ofLines (cut lines).1
    let blocks := (cut lines).2.map ofLines
    let described := blocks.flatMap (·.params)
    ofLines lines = {
      summary := untagged.summary
      description := untagged.description
      params := Entries.putAll [] described
      returns := (blocks.filterMap (·.returns)).getLast?
      deprecated := (blocks.filterMap (·.deprecated)).getLast?
      isBeta := blocks.any (·.isBeta)
      isInternal := blocks.any (·.isInternal)
      seeAlso := blocks.flatMap (·.seeAlso)
      examples := blocks.flatMap (·.examples) } ∧
    (ofLines lines).params.map (·.1) = (described.map (·.1)).eraseDups ∧
    ∀ name, (ofLines lines).params.lookup name = described.reverse.lookup name := by
  intro untagged blocks described
  have alone : untagged = { empty with
      summary := untagged.summary, description := untagged.description } :=
    ofLines_of_untagged (forall_mem_cut each).1 fun line member => untagged_of_mem_cut member
  have whole : ofLines lines = blocks.foldl followedBy untagged := ofLines_eq_foldl_followedBy each
  have params : (ofLines lines).params = Entries.putAll [] described := by
    rw [whole, foldl_followedBy, alone]
    rfl
  refine ⟨?_, ?_, fun name => ?_⟩
  · rw [whole, foldl_followedBy, alone]
    simp [empty, described]
  · rw [params, Entries.names_putAll]
  · rw [params, Entries.lookup_putAll]

/-- A comment on a letter. One parameter is described twice, and a tag that means nothing here
stands between others. -/
def letter : List String :=
  ["Sends a letter.", "", "By post.", "@param to - The reader", "@param text What it says,",
    "  in full", "@remarks Slow.", "Very slow.", "@beta", "@returns Nothing",
    "@param to Whoever reads", "@example", "```", "send(you, text)", "```"]

/-- The remarks say nothing, also not about the parameter before them, and the later description
of the reader takes the place of the first. -/
theorem blocks_of_letter_are_independent :
    (∀ line ∈ letter, Text.IsLine line.toList) ∧
    (cut letter).1 = ["Sends a letter.", "", "By post."] ∧
    ofLines letter = {
      summary := "Sends a letter."
      description := some "By post."
      params := [("to", "Whoever reads"), ("text", "What it says, in full")]
      returns := some "Nothing"
      deprecated := none
      isBeta := true
      isInternal := false
      seeAlso := []
      examples := ["send(you, text)"] } := by
  have each : ∀ line ∈ letter, Text.IsLine line.toList := by decide +kernel
  exact ⟨each, by decide +kernel, (blocks_are_independent each).1.trans (by decide +kernel)⟩

end ApiManual.DocComment
