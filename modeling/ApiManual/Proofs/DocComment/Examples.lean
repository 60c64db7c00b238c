import ApiManual.Proofs.DocComment.Blocks

/-!
# Examples in documentation comments

The code of an example stands between two fences, and what is kept of it are its lines as they
are.  But whether a line begins with a tag is asked before anything else: fences do not protect
code, so a line of code that begins with `@` ends the example.  No example has more lines than the
comment has lines without tags and fences, which tells that an example with such a line is never
kept as a whole.
-/

namespace ApiManual.DocComment

/-- A line that is a fence, with or without a language behind it. -/
structure FenceLine where
  text : String
  isLine : Text.IsLine text.toList
  isFence : isFence text.toList = true

namespace FenceLine

/-- A fence and nothing else. -/
def plain : FenceLine := ⟨"```", by decide, by decide⟩

theorem untagged (fence : FenceLine) : isTagLine fence.text = false := by
  obtain ⟨text, isLine, isFence⟩ := fence
  rw [DocComment.isFence, Option.isSome_iff_exists] at isFence
  obtain ⟨rest, begins⟩ := isFence
  have trimmed := List.isPrefixOf?_eq_some_iff_append_eq.mp begins
  simp [isTagLine, Text.trim, ← trimmed]

end FenceLine

/-- The lines of an example: its tag, and code between fences. -/
def exampleLines (opening closing : FenceLine) (code : List String) : List String :=
  "@example" :: opening.text :: (code ++ [closing.text])

variable {opening closing : FenceLine} {lines : List String}

theorem isLine_of_mem_exampleLines (each : ∀ line ∈ lines, Text.IsLine line.toList) :
    ∀ line ∈ exampleLines opening closing lines, Text.IsLine line.toList := by
  rw [exampleLines, List.forall_mem_cons, List.forall_mem_cons, List.forall_mem_append,
    List.forall_mem_singleton]
  exact ⟨by decide, opening.isLine, each, closing.isLine⟩

theorem opens_example :
    (tagText? "@example".toList).map tagOpening = some (Tag.example, []) := by
  decide

/-! ## Code that is kept -/

theorem flatMap_kept_example (lines : List String) :
    (lines.flatMap fun line => Tag.kept line.toList .example) =
      (lines.filter fun line => !isFence line.toList).map String.toList := by
  induction lines with
  | nil => rfl
  | cons line rest ih =>
      rw [List.flatMap_cons, ih]
      by_cases fence : isFence line.toList = true
      · simp [Tag.kept, fence]
      · simp [Tag.kept, fence]

/-- Code whose first and last lines are not empty is kept as it stands. -/
theorem code_eq_joined (each : ∀ line ∈ lines, '\n' ∉ line.toList)
    (first : ∀ line ∈ lines.head?, line ≠ "") (last : ∀ line ∈ lines.getLast?, line ≠ "") :
    code (lines.map String.toList) = Text.joined "\n" lines := by
  have same : (lines.map String.toList).map String.ofList = lines := by simp
  have clean : ∀ line ∈ lines, ∀ char ∈ line.toList, decide (char = '\n') = false := by
    intro line member char inside
    refine decide_eq_false fun newline => each line member ?_
    rwa [newline] at inside
  rw [code, same]
  refine (congrArg String.ofList (Text.dropBoth_joined ?_ ?_)).trans (String.ofList_toList)
  · intro line isFirst
    have member := List.mem_of_mem_head? isFirst
    exact ⟨first line isFirst, fun char inside =>
      clean line member char (List.mem_of_mem_head? inside)⟩
  · intro line isLast
    have member := List.mem_of_mem_getLast? isLast
    exact ⟨last line isLast, fun char inside =>
      clean line member char (List.mem_of_mem_getLast? inside)⟩

theorem isBlankText_joined (said : ∃ line ∈ lines.head?, Text.isBlankText line = false) :
    Text.isBlankText (Text.joined "\n" lines) = false := by
  obtain ⟨line, isFirst, notBlank⟩ := said
  cases lines with
  | nil => cases isFirst
  | cons first rest =>
      rw [List.head?_cons, Option.mem_some_iff] at isFirst
      subst isFirst
      obtain ⟨later, whole⟩ :=
        Text.prefix_intercalate ['\n'] first.toList (rest.map String.toList)
      have letters : (Text.joined "\n" (first :: rest)).toList = first.toList ++ later := by
        rw [Text.joined, String.toList_intercalate, List.map_cons, whole]
        rfl
      rw [Text.isBlankText] at notBlank
      rw [Text.isBlankText, letters, List.all_append, notBlank, Bool.false_and]

/-- An example without tags or fences in it says its code and nothing else. -/
theorem finished_after_exampleLines
    (each : ∀ line ∈ lines, '\n' ∉ line.toList ∧ isFence line.toList = false)
    (untagged : ∀ line ∈ lines, isTagLine line = false)
    (said : Text.isBlankText (Text.joined "\n" lines) = false)
    (first : ∀ line ∈ lines.head?, line ≠ "") (last : ∀ line ∈ lines.getLast?, line ≠ "") :
    (Reading.start.after (exampleLines opening closing lines)).finished =
      { empty with examples := [Text.joined "\n" lines] } := by
  have below : ∀ line ∈ opening.text :: (lines ++ [closing.text]), isTagLine line = false := by
    rw [List.forall_mem_cons, List.forall_mem_append, List.forall_mem_singleton]
    exact ⟨opening.untagged, untagged, closing.untagged⟩
  have kept : (opening.text :: (lines ++ [closing.text])).filter
      (fun line => !isFence line.toList) = lines := by
    have code : lines.filter (fun line => !isFence line.toList) = lines :=
      List.filter_eq_self.mpr fun line member => by rw [(each line member).2]; rfl
    rw [List.filter_cons_of_neg (by simp [opening.isFence]), List.filter_append, code,
      List.filter_cons_of_neg (by simp [closing.isFence]), List.filter_nil, List.append_nil]
  rw [exampleLines, Reading.finished_after_opened opens_example below, flatMap_kept_example, kept,
    Tag.keptOpening, List.nil_append, addBlock,
    code_eq_joined (fun line member => (each line member).1) first last, said]
  rfl

/-! ## How long examples are -/

/-- How many lines a text has. -/
def height (text : String) : Nat := text.toList.count '\n' + 1

/-- How many lines texts have together. -/
def heights : List String → Nat
  | [] => 0
  | text :: rest => height text + heights rest

theorem heights_append (first second : List String) :
    heights (first ++ second) = heights first + heights second := by
  induction first with
  | nil => exact (Nat.zero_add _).symm
  | cons text rest ih => rw [List.cons_append, heights, heights, ih, Nat.add_assoc]

theorem count_newline_joined {lines : List (List Char)} (some : lines ≠ [])
    (each : ∀ line ∈ lines, '\n' ∉ line) :
    (['\n'].intercalate lines).count '\n' + 1 = lines.length := by
  induction lines with
  | nil => exact absurd rfl some
  | cons first rest ih =>
      rw [List.forall_mem_cons] at each
      have inFirst : first.count '\n' = 0 := List.count_eq_zero.mpr each.1
      cases rest with
      | nil => rw [List.intercalate_singleton, inFirst, List.length_singleton]
      | cons second later =>
          have inRest := ih (List.cons_ne_nil _ _) each.2
          rw [List.intercalate_cons_cons, List.append_assoc, List.count_append, List.count_append,
            inFirst, List.length_cons, ← inRest]
          simp [Nat.add_comm]

theorem height_joined (some : lines ≠ []) (each : ∀ line ∈ lines, '\n' ∉ line.toList) :
    height (Text.joined "\n" lines) = lines.length := by
  have cut : (['\n'].intercalate (lines.map String.toList)).count '\n' + 1 =
      (lines.map String.toList).length :=
    count_newline_joined (by simpa using some) (List.forall_mem_map.mpr each)
  rw [List.length_map] at cut
  rw [← cut, height, Text.joined, String.toList_intercalate]
  rfl

/-- Lines of code are lost only where empty ones are dropped. -/
theorem height_code_le {kept : List (List Char)} (each : ∀ line ∈ kept, '\n' ∉ line)
    (said : Text.isBlankText (code kept) = false) : height (code kept) ≤ kept.length := by
  have some : kept ≠ [] := by
    rintro rfl
    exact absurd said (by decide)
  rw [height, code, String.toList_ofList, Text.toList_joined_ofList,
    ← count_newline_joined some each]
  exact Nat.succ_le_succ ((Text.dropBoth_sublist _ _).count_le _)

/-- A line that can be code: neither a tag nor a fence begins it. -/
def isCodeLine (line : String) : Bool := !isTagLine line && !isFence line.toList

theorem heights_after_block {block : List String} (isBlock : IsBlock block)
    (each : ∀ line ∈ block, Text.IsLine line.toList) :
    heights (Reading.start.after block).finished.examples ≤ block.countP isCodeLine := by
  obtain ⟨first, rest, tag, opening, rfl, opens, untagged⟩ := Reading.opens_of_isBlock isBlock
  rw [Reading.finished_after_opened opens untagged]
  cases tag with
  | «example» =>
      rw [Tag.keptOpening, List.nil_append, flatMap_kept_example]
      have kept : (rest.filter fun line => !isFence line.toList).length ≤
          (first :: rest).countP isCodeLine := by
        rw [List.countP_cons, ← List.countP_eq_length_filter]
        refine Nat.le_trans (Nat.le_of_eq (List.countP_congr fun line member => ?_))
          (Nat.le_add_right _ _)
        rw [isCodeLine, untagged line member]
        rfl
      generalize held : (rest.filter fun line => !isFence line.toList).map String.toList = code
      have clean : ∀ line ∈ code, '\n' ∉ line := by
        rw [← held]
        refine List.forall_mem_map.mpr fun line member => ?_
        exact (each line (List.mem_cons_of_mem _ (List.mem_of_mem_filter member))).oneLine
      rw [addBlock]
      split
      · exact Nat.zero_le _
      · next said =>
          have short := height_code_le clean (Bool.eq_false_iff.mpr said)
          rw [← held, List.length_map] at short
          simpa [heights, mark, empty, ← held] using Nat.le_trans short kept
  | see =>
      rw [addBlock]
      split <;> exact Nat.zero_le _
  | param | returns | deprecated | beta | internal | other => exact Nat.zero_le _

/-- The examples of a comment are those of its blocks. -/
theorem examples_ofLines (each : ∀ line ∈ lines, Text.IsLine line.toList) :
    (ofLines lines).examples =
      (cut lines).2.flatMap fun block => (Reading.start.after block).finished.examples := by
  obtain ⟨eachBefore, eachBlock⟩ := forall_mem_cut each
  have before : (ofLines (cut lines).1).examples = [] := by
    rw [ofLines_of_untagged eachBefore fun line member => untagged_of_mem_cut member]
    rfl
  have said : ∀ block ∈ (cut lines).2,
      (ofLines block).examples = (Reading.start.after block).finished.examples :=
    fun block member => by rw [ofLines_eq_finished (eachBlock block member)]
  calc
    (ofLines lines).examples =
        (ofLines (cut lines).1).examples ++ ((cut lines).2.map ofLines).flatMap (·.examples) := by
      rw [ofLines_eq_foldl_followedBy each, foldl_followedBy]
    _ = (cut lines).2.flatMap fun block => (ofLines block).examples := by
      rw [before, List.nil_append, List.flatMap_map]
    _ = (cut lines).2.flatMap fun block => (Reading.start.after block).finished.examples :=
      List.flatMap_congr said

/-- Examples have no more lines than there are lines that can be code. -/
theorem heights_le_countP (each : ∀ line ∈ lines, Text.IsLine line.toList) :
    heights (ofLines lines).examples ≤ lines.countP isCodeLine := by
  have eachBlock := (forall_mem_cut each).2
  have areBlocks : ∀ block ∈ (cut lines).2, IsBlock block := fun block => isBlock_of_mem_cut
  have inBlocks : (cut lines).2.flatten.countP isCodeLine ≤ lines.countP isCodeLine := by
    conv_rhs => rw [← cut_flatten lines, List.countP_append]
    exact Nat.le_add_left _ _
  rw [examples_ofLines each]
  refine Nat.le_trans ?_ inBlocks
  generalize (cut lines).2 = blocks at eachBlock areBlocks
  induction blocks with
  | nil => exact Nat.le_refl 0
  | cons block rest ih =>
      rw [List.forall_mem_cons] at eachBlock areBlocks
      rw [List.flatMap_cons, heights_append, List.flatten_cons, List.countP_append]
      exact Nat.add_le_add (heights_after_block areBlocks.1 eachBlock.1)
        (ih eachBlock.2 areBlocks.2)

/-! ## Code between fences -/

/-- Code between fences is kept as it stands exactly when none of its lines begins with a tag, and
then the comment says nothing else. -/
theorem code_is_kept_iff (some : lines ≠ [])
    (each : ∀ line ∈ lines, Text.IsLine line.toList ∧ isFence line.toList = false)
    (first : ∀ line ∈ lines.head?, Text.isBlankText line = false)
    (last : ∀ line ∈ lines.getLast?, Text.isBlankText line = false) :
    ((ofLines (exampleLines opening closing lines)).examples = [Text.joined "\n" lines] ↔
      ∀ line ∈ lines, isTagLine line = false) ∧
    ((∀ line ∈ lines, isTagLine line = false) →
      ofLines (exampleLines opening closing lines) =
        { empty with examples := [Text.joined "\n" lines] }) := by
  have oneLine : ∀ line ∈ lines, '\n' ∉ line.toList :=
    fun line member => (each line member).1.oneLine
  have areLines : ∀ line ∈ exampleLines opening closing lines, Text.IsLine line.toList :=
    isLine_of_mem_exampleLines fun line member => (each line member).1
  have keeps : (∀ line ∈ lines, isTagLine line = false) →
      ofLines (exampleLines opening closing lines) =
        { empty with examples := [Text.joined "\n" lines] } := by
    intro untagged
    rw [ofLines_eq_finished areLines]
    refine finished_after_exampleLines
      (fun line member => ⟨oneLine line member, (each line member).2⟩) untagged ?_ ?_ ?_
    · exact isBlankText_joined
        ⟨lines.head some, List.head_mem_head? some, first _ (List.head_mem_head? some)⟩
    · rintro line isFirst rfl
      exact absurd (first "" isFirst) (by decide)
    · rintro line isLast rfl
      exact absurd (last "" isLast) (by decide)
  refine ⟨⟨fun kept => ?_, fun untagged => by rw [keeps untagged]⟩, keeps⟩
  -- the one example has as many lines as the code, and only lines without tags make examples
  have long := heights_le_countP areLines
  have code : (exampleLines opening closing lines).countP isCodeLine = lines.countP isCodeLine := by
    have tagged : isTagLine "@example" = true := by decide
    simp [exampleLines, List.countP_append, isCodeLine, tagged, opening.isFence, closing.isFence]
  rw [kept, heights, heights, Nat.add_zero, height_joined some oneLine, code] at long
  have all := List.countP_eq_length.mp (Nat.le_antisymm List.countP_le_length long)
  intro line member
  simpa [isCodeLine, (each line member).2] using all line member

/-- A fence with a language. -/
def FenceLine.typescript : FenceLine := ⟨"```typescript", by decide, by decide⟩

/-- Code with an indented line, an empty one and an address. -/
def delivery : List String := ["if (isHome) \x7b", "", "    send(\"me@home\")", "\x7d"]

theorem code_of_delivery_is_kept :
    delivery ≠ [] ∧ (∀ line ∈ delivery, Text.IsLine line.toList ∧ isFence line.toList = false) ∧
    (∀ line ∈ delivery.head?, Text.isBlankText line = false) ∧
    (∀ line ∈ delivery.getLast?, Text.isBlankText line = false) ∧
    ofLines (exampleLines .typescript .plain delivery) =
      { empty with examples := ["if (isHome) \x7b\n\n    send(\"me@home\")\n\x7d"] } := by
  have some : delivery ≠ [] := by decide
  have each : ∀ line ∈ delivery, Text.IsLine line.toList ∧ isFence line.toList = false := by decide
  have first : ∀ line ∈ delivery.head?, Text.isBlankText line = false := by decide
  have last : ∀ line ∈ delivery.getLast?, Text.isBlankText line = false := by decide
  exact ⟨some, each, first, last, (code_is_kept_iff some each first last).2 (by decide)⟩

/-- Code with a decorator on a line of its own. -/
def decorated : List String := ["class Letter \x7b", "  @deprecated", "  send() \x7b \x7d", "\x7d"]

/-- The decorator ends the example, and what follows it becomes the reason for a deprecation, the
closing fence included. -/
theorem code_of_decorated_is_not_kept :
    decorated ≠ [] ∧ (∀ line ∈ decorated, Text.IsLine line.toList ∧ isFence line.toList = false) ∧
    (∀ line ∈ decorated.head?, Text.isBlankText line = false) ∧
    (∀ line ∈ decorated.getLast?, Text.isBlankText line = false) ∧
    ofLines (exampleLines .typescript .plain decorated) =
      { empty with
        deprecated := some "send() \x7b \x7d \x7d ```"
        examples := ["class Letter \x7b"] } ∧
    (ofLines (exampleLines .typescript .plain decorated)).examples ≠
      [Text.joined "\n" decorated] := by
  decide +kernel

end ApiManual.DocComment
