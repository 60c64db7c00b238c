import ApiManual.Markdown
import Mathlib.Data.List.Basic
import Mathlib.Data.List.TakeWhile

/-!
# Reading nested lists

A list is written row by row: an entry, then all that is nested below it, then the next entry.
A row tells its depth by its indent, four spaces for each list around it.  No text makes this
unclear, since the dash of the row ends the indent before the text begins.

So the rows are found again, and from the depths alone the entries are.  Reading accepts exactly
the lines of lists, which also shows that different lists are written differently.  An entry with
nothing below it is an entry with an empty list below it.
-/

namespace ApiManual.Markdown

/-! ## Rows -/

/-- A row of a list: the text of an entry, and how many entries are around it. -/
structure ListRow where
  depth : Nat
  text : String
  deriving DecidableEq

namespace ListRow

/-- A row as it is written. -/
def line (row : ListRow) : String := listIndent row.depth ++ "- " ++ row.text

/-- The row that is written as a line. -/
def ofLine? (line : String) : Option ListRow :=
  let indent := line.toList.takeWhile (· = ' ')
  (['-', ' '].isPrefixOf? (line.toList.dropWhile (· = ' '))).bind fun text =>
    if indent.length % 4 = 0 then some ⟨indent.length / 4, String.ofList text⟩ else none

theorem toList_line (row : ListRow) :
    row.line.toList = List.replicate (4 * row.depth) ' ' ++ '-' :: ' ' :: row.text.toList := by
  simp [line, listIndent]

/-- The space before the dash is the whole indent, whatever the text begins with. -/
theorem ofLine?_line (row : ListRow) : ofLine? row.line = some row := by
  have spaces : ∀ char ∈ List.replicate (4 * row.depth) ' ', decide (char = ' ') = true :=
    fun char inside => decide_eq_true (List.eq_of_mem_replicate inside)
  have found : ['-', ' '].isPrefixOf? ('-' :: ' ' :: row.text.toList) = some row.text.toList :=
    List.isPrefixOf?_eq_some_iff_append_eq.mpr rfl
  simp [ofLine?, toList_line, List.takeWhile_append_of_pos spaces,
    List.dropWhile_append_of_pos spaces, found]

theorem ofLine?_eq_some_iff {line : String} {row : ListRow} :
    ofLine? line = some row ↔ row.line = line := by
  constructor
  · intro read
    obtain ⟨text, found, built⟩ := Option.bind_eq_some_iff.mp read
    split at built
    · next even =>
        cases built
        have spaces : line.toList.takeWhile (· = ' ') =
            List.replicate (line.toList.takeWhile (· = ' ')).length ' ' :=
          List.eq_replicate_of_mem fun char inside => by
            simpa using List.mem_takeWhile_imp inside
        have whole : line.toList.takeWhile (· = ' ') ++ line.toList.dropWhile (· = ' ') =
            line.toList := List.takeWhile_append_dropWhile
        apply String.toList_inj.mp
        rw [toList_line, Nat.mul_div_cancel' (Nat.dvd_of_mod_eq_zero even), ← spaces,
          String.toList_ofList]
        rw [← List.isPrefixOf?_eq_some_iff_append_eq.mp found] at whole
        exact whole
    · cases built
  · rintro rfl
    exact ofLine?_line row

/-- A text that looks like a row itself is told from the indent of its row. -/
example : ofLine? "        -     - qux" = some ⟨2, "    - qux"⟩ := by decide +kernel

end ListRow

/-! ## Entries -/

namespace ListItem

mutual

/-- How many entries an entry and the list below it have together. -/
def count : ListItem → Nat
  | ⟨_, items⟩ => countAll items + 1

/-- How many entries there are, those that are nested below others included. -/
def countAll : List ListItem → Nat
  | [] => 0
  | item :: rest => item.count + countAll rest

end

mutual

/-- The rows of an entry: its own one, then those of the list below it. -/
def rows (depth : Nat) : ListItem → List ListRow
  | ⟨text, items⟩ => ⟨depth, text⟩ :: rowsOf (depth + 1) items

/-- The rows of entries, one after the other. -/
def rowsOf (depth : Nat) : List ListItem → List ListRow
  | [] => []
  | item :: rest => item.rows depth ++ rowsOf depth rest

end

mutual

theorem length_rows (depth : Nat) : (item : ListItem) → (item.rows depth).length = item.count
  | ⟨text, items⟩ => by
      rw [rows, List.length_cons, length_rowsOf (depth + 1) items, count]

/-- There are as many rows as entries. -/
theorem length_rowsOf (depth : Nat) : (items : List ListItem) →
    (rowsOf depth items).length = countAll items
  | [] => rfl
  | item :: rest => by
      rw [rowsOf, List.length_append, length_rows depth item, length_rowsOf depth rest, countAll]

end

theorem rowsOf_eq_flatMap (depth : Nat) (items : List ListItem) :
    rowsOf depth items = items.flatMap (rows depth) := by
  induction items with
  | nil => rfl
  | cons item rest ih => rw [rowsOf, ih, List.flatMap_cons]

end ListItem

open ListItem (rowsOf)

mutual

theorem itemLines_eq_map_line (depth : Nat) : (item : ListItem) →
    itemLines depth item = (item.rows depth).map ListRow.line
  | ⟨text, items⟩ => by
      rw [itemLines, ListItem.rows, List.map_cons, listLines_eq_map_line (depth + 1) items]
      rfl

/-- A list is written row by row. -/
theorem listLines_eq_map_line (depth : Nat) : (items : List ListItem) →
    listLines depth items = (rowsOf depth items).map ListRow.line
  | [] => rfl
  | item :: rest => by
      rw [listLines, rowsOf, List.map_append, itemLines_eq_map_line depth item,
        listLines_eq_map_line depth rest]

end

/-! ## Trees from depths -/

/-- Puts a row before entries with their depths. Those that follow at once and are deeper go below
it, and all of them must be so by one. -/
def ListRow.above? (row : ListRow) (later : List (Nat × ListItem)) :
    Option (List (Nat × ListItem)) :=
  let below := later.takeWhile (row.depth < ·.1)
  if below.all (·.1 = row.depth + 1) then
    some ((row.depth, ⟨row.text, below.map (·.2)⟩) :: later.dropWhile (row.depth < ·.1))
  else none

/-- The outermost entries that rows make, with their depths. Rows are taken from the last one
on. -/
def gather? : List ListRow → Option (List (Nat × ListItem))
  | [] => some []
  | row :: rest => (gather? rest).bind row.above?

/-- The list that rows make. -/
def ListItem.ofRows? (rows : List ListRow) : Option (List ListItem) :=
  (gather? rows).bind fun found =>
    if found.all (·.1 = 0) then some (found.map (·.2)) else none

/-- The list that is written as the given lines. -/
def ListItem.ofLines? (lines : List String) : Option (List ListItem) :=
  (lines.mapM ListRow.ofLine?).bind ListItem.ofRows?

variable {depth : Nat} {items : List ListItem} {later found : List (Nat × ListItem)}

/-- Entries that are all at one depth have the rows of a list at that depth. -/
theorem flatMap_rows_of_all (all : found.all (·.1 = depth) = true) :
    (found.flatMap fun entry => entry.2.rows entry.1) = rowsOf depth (found.map (·.2)) := by
  rw [ListItem.rowsOf_eq_flatMap, List.flatMap_map]
  refine List.flatMap_congr fun entry inside => ?_
  rw [of_decide_eq_true (List.all_eq_true.mp all entry inside)]

/-- Gathered entries have the rows that they are made of. -/
theorem rows_of_gather? {rows : List ListRow} (gathered : gather? rows = some found) :
    rows = found.flatMap fun entry => entry.2.rows entry.1 := by
  induction rows generalizing found with
  | nil =>
      cases gathered
      rfl
  | cons row rest ih =>
      obtain ⟨later, inRest, placed⟩ := Option.bind_eq_some_iff.mp gathered
      simp only [ListRow.above?] at placed
      split at placed
      · next byOne =>
          cases placed
          have parted : later = later.takeWhile (row.depth < ·.1) ++
              later.dropWhile (row.depth < ·.1) := List.takeWhile_append_dropWhile.symm
          rw [List.flatMap_cons, ListItem.rows, ← flatMap_rows_of_all byOne, List.cons_append,
            ← List.flatMap_append, ← parted, ← ih inRest]
      · cases placed

/-- A row goes above a list that is one deeper, when nothing deeper follows the list. -/
theorem above?_append (text : String) (items : List ListItem)
    (stops : ∀ next ∈ later.head?, next.1 ≤ depth) :
    ListRow.above? ⟨depth, text⟩ (items.map (depth + 1, ·) ++ later) =
      some ((depth, ⟨text, items⟩) :: later) := by
  have deeper : ∀ entry ∈ items.map (depth + 1, ·), decide (depth < entry.1) = true := by
    simp
  have outside : later.takeWhile (depth < ·.1) = [] ∧ later.dropWhile (depth < ·.1) = later := by
    cases later with
    | nil => exact ⟨rfl, rfl⟩
    | cons next rest =>
        have shallow : ¬ depth < next.1 := Nat.not_lt_of_le (stops next rfl)
        simp [shallow]
  have below : (items.map (depth + 1, ·) ++ later).takeWhile (depth < ·.1) =
      items.map (depth + 1, ·) := by
    rw [List.takeWhile_append_of_pos deeper, outside.1, List.append_nil]
  have behind : (items.map (depth + 1, ·) ++ later).dropWhile (depth < ·.1) = later := by
    rw [List.dropWhile_append_of_pos deeper, outside.2]
  have same : (items.map (depth + 1, ·)).map (·.2) = items := by simp [Function.comp_def]
  have byOne : (items.map (depth + 1, ·)).all (·.1 = depth + 1) = true := by simp
  simp only [ListRow.above?, below, behind, same, byOne, if_true]

mutual

theorem gather?_rows_append (depth : Nat) (rest : List ListRow) (later : List (Nat × ListItem))
    (gathered : gather? rest = some later) (stops : ∀ next ∈ later.head?, next.1 ≤ depth) :
    (item : ListItem) → gather? (item.rows depth ++ rest) = some ((depth, item) :: later)
  | ⟨text, items⟩ => by
      have deeper : ∀ next ∈ later.head?, next.1 ≤ depth + 1 :=
        fun next first => Nat.le_succ_of_le (stops next first)
      rw [ListItem.rows, List.cons_append, gather?,
        gather?_rowsOf_append (depth + 1) rest later gathered deeper items]
      exact above?_append text items stops

/-- The rows of a list are gathered into its entries, whatever rows of no greater depth
follow. -/
theorem gather?_rowsOf_append (depth : Nat) (rest : List ListRow) (later : List (Nat × ListItem))
    (gathered : gather? rest = some later) (stops : ∀ next ∈ later.head?, next.1 ≤ depth) :
    (items : List ListItem) →
    gather? (rowsOf depth items ++ rest) = some (items.map (depth, ·) ++ later)
  | [] => gathered
  | item :: others => by
      have behind := gather?_rowsOf_append depth rest later gathered stops others
      have stopsHere : ∀ next ∈ (others.map (depth, ·) ++ later).head?, next.1 ≤ depth := by
        cases others with
        | nil => exact stops
        | cons second _ => simp
      rw [rowsOf, List.append_assoc]
      exact gather?_rows_append depth _ _ behind stopsHere item

end

theorem ListItem.ofRows?_eq_some_iff {rows : List ListRow} :
    ofRows? rows = some items ↔ rowsOf 0 items = rows := by
  constructor
  · intro read
    obtain ⟨found, gathered, built⟩ := Option.bind_eq_some_iff.mp read
    split at built
    · next top =>
        cases built
        rw [rows_of_gather? gathered, flatMap_rows_of_all top]
    · cases built
  · rintro rfl
    have gathered : gather? (rowsOf 0 items ++ []) = some (items.map (0, ·) ++ []) :=
      gather?_rowsOf_append 0 [] [] rfl (by simp) items
    rw [List.append_nil, List.append_nil] at gathered
    simp [ofRows?, gathered, Function.comp_def]

theorem mapM_ofLine?_eq_some_iff {lines : List String} {rows : List ListRow} :
    lines.mapM ListRow.ofLine? = some rows ↔ rows.map ListRow.line = lines := by
  induction lines generalizing rows with
  | nil => simp [eq_comm]
  | cons line rest ih =>
      simp only [List.mapM_cons, Option.bind_eq_bind, Option.bind_eq_some_iff, Option.pure_def,
        Option.some.injEq, ListRow.ofLine?_eq_some_iff, ih, List.map_eq_cons_iff]
      constructor
      · rintro ⟨row, first, others, later, rfl⟩
        exact ⟨row, others, rfl, first, later⟩
      · rintro ⟨row, others, rfl, first, later⟩
        exact ⟨row, first, others, later, rfl⟩

/-- Reading accepts exactly what writing makes. -/
theorem ListItem.ofLines?_eq_some_iff {lines : List String} :
    ofLines? lines = some items ↔ listLines 0 items = lines := by
  rw [ofLines?, Option.bind_eq_some_iff, listLines_eq_map_line]
  constructor
  · rintro ⟨rows, read, built⟩
    rw [ofRows?_eq_some_iff.mp built]
    exact mapM_ofLine?_eq_some_iff.mp read
  · intro written
    exact ⟨rowsOf 0 items, mapM_ofLine?_eq_some_iff.mpr written, ofRows?_eq_some_iff.mpr rfl⟩

/-- A list adds one line for each of its entries to a document: in the order in which an entry
comes before what is nested below it, and with the text behind a dash and four spaces for each
entry around it. These lines are read back into the list and no other lines are, so two lists that
are written alike are the same. -/
theorem list_is_read_back (before : List Block) (items : List ListItem) :
    ∃ added, toLines (before ++ [.list items]) = toLines before ++ added ∧
      added.length = ListItem.countAll items ∧
      added = (rowsOf 0 items).map ListRow.line ∧
      (∀ lines, ListItem.ofLines? lines = some items ↔ lines = added) ∧
      ∀ others, (Block.list others).toLines = added → others = items := by
  refine ⟨listLines 0 items, ?_, ?_, listLines_eq_map_line 0 items, fun lines => ?_, ?_⟩
  · simp [toLines, Block.toLines]
  · rw [listLines_eq_map_line, List.length_map, ListItem.length_rowsOf]
  · rw [ListItem.ofLines?_eq_some_iff, eq_comm]
  · intro others same
    have readOthers : ListItem.ofLines? (listLines 0 items) = some others :=
      ListItem.ofLines?_eq_some_iff.mpr same
    have readItems : ListItem.ofLines? (listLines 0 items) = some items :=
      ListItem.ofLines?_eq_some_iff.mpr rfl
    exact Option.some.inj (readOthers.symm.trans readItems)

end ApiManual.Markdown
