import ApiManual.DocComment
import ApiManual.Proofs.Text.Lines

/-!
# Characters of documentation comments

Taking a comment apart only cuts and joins: what a block says is made of characters
of the comment, and of the spaces and line feeds that join its lines.  So a property
of characters that holds of the comment and of these two holds of everything that
the comment says.
-/

namespace ApiManual

variable {holds : Char → Prop}

namespace Text

theorem mem_of_mem_dropBoth {α : Type} {drop : α → Bool} {values : List α} {value : α}
    (member : value ∈ dropBoth drop values) : value ∈ values :=
  (dropBoth_sublist drop values).subset member

theorem mem_of_mem_trimChars {chars : List Char} {char : Char}
    (member : char ∈ trimChars chars) : char ∈ chars :=
  mem_of_mem_dropBoth member

theorem mem_of_mem_linesOf {chars line : List Char} {char : Char}
    (cut : line ∈ linesOf chars) (inside : char ∈ line) : char ∈ chars := by
  fun_induction linesOf chars generalizing line with
  | case1 => cases cut
  | case2 rest ih =>
      rcases List.mem_cons.mp cut with rfl | later
      · cases inside
      · exact List.mem_cons_of_mem _ (ih later inside)
  | case3 rest ih =>
      rcases List.mem_cons.mp cut with rfl | later
      · cases inside
      · exact List.mem_cons_of_mem _ (List.mem_cons_of_mem _ (ih later inside))
  | case4 first rest _ _ _ _ =>
      rw [List.mem_singleton.mp cut, List.mem_singleton] at inside
      rw [inside]
      exact List.mem_cons_self
  | case5 first rest _ _ line' later cutRest ih =>
      rcases List.mem_cons.mp cut with rfl | inLater
      · rcases List.mem_cons.mp inside with rfl | inFirst
        · exact List.mem_cons_self
        · refine List.mem_cons_of_mem _ (ih ?_ inFirst)
          rw [cutRest]
          exact List.mem_cons_self
      · refine List.mem_cons_of_mem _ (ih ?_ inside)
        rw [cutRest]
        exact List.mem_cons_of_mem _ inLater

theorem holds_joined {separator : String} {texts : List String}
    (between : ∀ char ∈ separator.toList, holds char)
    (each : ∀ text ∈ texts, ∀ char ∈ text.toList, holds char) :
    ∀ char ∈ (joined separator texts).toList, holds char := by
  intro char member
  rw [joined, String.toList_intercalate] at member
  rcases mem_of_mem_intercalate member with inSeparator | ⟨part, held, inside⟩
  · exact between char inSeparator
  · obtain ⟨text, listed, rfl⟩ := List.mem_map.mp held
    exact each text listed char inside

end Text

namespace DocComment

/-! ## Blocks -/

/-- Lines hold a property of characters. -/
def AllHold (holds : Char → Prop) (lines : List (List Char)) : Prop :=
  ∀ line ∈ lines, ∀ char ∈ line, holds char

theorem AllHold.append {first second : List (List Char)} (left : AllHold holds first)
    (right : AllHold holds second) : AllHold holds (first ++ second) :=
  List.forall_mem_append.mpr ⟨left, right⟩

theorem mem_of_mem_behindWord {text : List Char} {char : Char}
    (member : char ∈ Text.trimChars (Text.firstWord text).2) : char ∈ text := by
  have behind := List.drop_subset _ _ (Text.mem_of_mem_trimChars member)
  exact List.dropWhile_subset _ behind

theorem mem_of_mem_paramOpening {text : List Char} {char : Char}
    (member : char ∈ (paramOpening text).2) : char ∈ text := by
  apply mem_of_mem_behindWord
  simp only [paramOpening] at member
  cases dashed : ['-', ' '].isPrefixOf? (Text.trimChars (Text.firstWord text).2) with
  | none =>
      rw [dashed] at member
      exact member
  | some after =>
      rw [dashed] at member
      rw [← List.isPrefixOf?_eq_some_iff_append_eq.mp dashed]
      exact List.mem_append_right _ member

theorem mem_of_mem_tagOpening {text : List Char} {char : Char}
    (member : char ∈ (tagOpening text).2) : char ∈ text := by
  simp only [tagOpening] at member
  split at member
  · exact mem_of_mem_behindWord (mem_of_mem_paramOpening member)
  all_goals exact mem_of_mem_behindWord member

theorem mem_of_mem_tagText? {line text : List Char} (tagged : tagText? line = some text)
    {char : Char} (member : char ∈ text) : char ∈ line := by
  simp only [tagText?] at tagged
  split at tagged
  · next rest trimmed =>
      cases tagged
      apply Text.mem_of_mem_trimChars
      rw [trimmed]
      exact List.mem_cons_of_mem _ member
  · cases tagged

theorem allHold_piece {text : List Char} (each : ∀ char ∈ text, holds char) :
    AllHold holds (piece text) := by
  rw [piece]
  split
  · exact List.forall_mem_nil _
  · exact List.forall_mem_singleton.mpr each

theorem allHold_keptOpening {opening : List Char} (each : ∀ char ∈ opening, holds char)
    (tag : Tag) : AllHold holds (tag.keptOpening opening) := by
  cases tag with
  | param | returns | deprecated | see => exact allHold_piece each
  | «example» | beta | internal | other => exact List.forall_mem_nil _

theorem allHold_kept {line : List Char} (each : ∀ char ∈ line, holds char) (tag : Tag) :
    AllHold holds (tag.kept line) := by
  cases tag with
  | param | returns | deprecated | see =>
      exact allHold_piece fun char trimmed => each char (Text.mem_of_mem_trimChars trimmed)
  | «example» =>
      rw [Tag.kept]
      split
      · exact List.forall_mem_nil _
      · exact List.forall_mem_singleton.mpr each
  | beta | internal | other => exact List.forall_mem_nil _

/-- Lines that are joined hold what they held, and what joins them. -/
theorem AllHold.joined {separator : String} {lines : List (List Char)}
    (held : AllHold holds lines) (between : ∀ char ∈ separator.toList, holds char) :
    ∀ char ∈ (Text.joined separator (lines.map String.ofList)).toList, holds char := by
  apply Text.holds_joined between
  intro text member
  obtain ⟨line, inside, rfl⟩ := List.mem_map.mp member
  rw [String.toList_ofList]
  exact held line inside

theorem AllHold.prose {kept : List (List Char)} (held : AllHold holds kept) (space : holds ' ') :
    ∀ char ∈ (prose kept).toList, holds char :=
  held.joined (by simpa using space)

theorem AllHold.code {kept : List (List Char)} (held : AllHold holds kept)
    (newline : holds '\n') : ∀ char ∈ (code kept).toList, holds char := by
  intro char member
  rw [DocComment.code, String.toList_ofList] at member
  exact held.joined (by simpa using newline) char (Text.mem_of_mem_dropBoth member)

/-! ## Comments -/

/-- What a comment says about an entity and its parts holds a property of texts. -/
structure Says (holds : String → Prop) (doc : DocComment) : Prop where
  summary : holds doc.summary
  description : ∀ text ∈ doc.description, holds text
  params : ∀ param ∈ doc.params, holds param.2
  returns : ∀ text ∈ doc.returns, holds text
  deprecated : ∀ text ∈ doc.deprecated, holds text
  seeAlso : ∀ text ∈ doc.seeAlso, holds text
  examples : ∀ text ∈ doc.examples, holds text

theorem says_empty {holds : String → Prop} (none : holds "") : empty.Says holds where
  summary := none
  description := by simp [empty]
  params := by simp [empty]
  returns := by simp [empty]
  deprecated := by simp [empty]
  seeAlso := by simp [empty]
  examples := by simp [empty]

theorem Says.mark {holds : String → Prop} {doc : DocComment} (said : doc.Says holds) (tag : Tag) :
    (mark doc tag).Says holds := by
  cases tag <;> exact { said with }

/-- A block says nothing but its prose or its code. -/
theorem Says.addBlock {holds : String → Prop} {doc : DocComment} {kept : List (List Char)}
    (said : doc.Says holds) (prose : holds (prose kept)) (code : holds (code kept)) (tag : Tag) :
    (addBlock doc kept tag).Says holds := by
  cases tag with
  | param name =>
      refine { said with params := fun param member => ?_ }
      rcases Entries.mem_put member with rfl | old
      · exact prose
      · exact said.params param old
  | returns => exact { said with returns := by simpa [DocComment.addBlock] using prose }
  | deprecated => exact { said with deprecated := by simpa [DocComment.addBlock] using prose }
  | see =>
      rw [DocComment.addBlock]
      split
      · exact said
      · exact { said with
          seeAlso := List.forall_mem_append.mpr
            ⟨said.seeAlso, List.forall_mem_singleton.mpr prose⟩ }
  | «example» =>
      rw [DocComment.addBlock]
      split
      · exact said
      · exact { said with
          examples := List.forall_mem_append.mpr
            ⟨said.examples, List.forall_mem_singleton.mpr code⟩ }
  | beta | internal | other => exact said

/-! ## Reading -/

/-- All that has been read holds a property of characters. -/
structure Reading.Holds (holds : Char → Prop) (reading : Reading) : Prop where
  doc : reading.doc.Says fun text => ∀ char ∈ text.toList, holds char
  kept : AllHold holds reading.kept
  summary : AllHold holds reading.summary
  description : AllHold holds reading.description

namespace Reading.Holds

variable {reading : Reading}

theorem start : Reading.start.Holds holds where
  doc := says_empty (by simp)
  kept := List.forall_mem_nil _
  summary := List.forall_mem_nil _
  description := List.forall_mem_nil _

theorem closed (held : reading.Holds holds) (space : holds ' ') (newline : holds '\n') :
    reading.closed.Says fun text => ∀ char ∈ text.toList, holds char := by
  rw [Reading.closed]
  split
  · exact held.doc
  · exact held.doc
  · exact held.doc.addBlock (held.kept.prose space) (held.kept.code newline) _

/-- Reading a line only takes characters of that line. -/
theorem step (held : reading.Holds holds) (space : holds ' ') (newline : holds '\n')
    {line : List Char} (each : ∀ char ∈ line, holds char) :
    (reading.step line).Holds holds := by
  have trimmed : AllHold holds [Text.trimChars line] :=
    List.forall_mem_singleton.mpr fun char inside => each char (Text.mem_of_mem_trimChars inside)
  rw [Reading.step]
  split
  · next text tagged =>
      exact { held with
        doc := (held.closed space newline).mark _
        kept := allHold_keptOpening (fun char opening =>
          each char (mem_of_mem_tagText? tagged (mem_of_mem_tagOpening opening))) _ }
  · simp only [Reading.continued]
    split
    · split
      · exact { held with summary := held.summary.append trimmed }
      · split
        · exact held
        · exact { held with }
    · exact { held with description := held.description.append trimmed }
    · exact { held with kept := held.kept.append (allHold_kept each _) }

theorem finished (held : reading.Holds holds) (space : holds ' ') (newline : holds '\n') :
    reading.finished.Says fun text => ∀ char ∈ text.toList, holds char := by
  refine { held.closed space newline with
    summary := held.summary.joined (by simpa using space), description := ?_ }
  intro text described char member
  simp only [Reading.finished] at described
  split at described
  · cases described
  · cases described
    rw [Text.trim, String.toList_ofList] at member
    exact held.description.joined (by simpa using newline) char (Text.mem_of_mem_trimChars member)

end Reading.Holds

/-- A comment says nothing but characters of its text, spaces and line feeds. -/
theorem says_parse {source : String} (space : holds ' ') (newline : holds '\n')
    (each : ∀ char ∈ source.toList, holds char) :
    (parse source).Says fun text => ∀ char ∈ text.toList, holds char := by
  have lines : AllHold holds (Text.linesOf source.toList) :=
    fun line cut char inside => each char (Text.mem_of_mem_linesOf cut inside)
  have read : ((Text.linesOf source.toList).foldl Reading.step .start).Holds holds := by
    generalize Text.linesOf source.toList = rest at lines
    have start : Reading.start.Holds holds := .start
    generalize Reading.start = reading at start
    induction rest generalizing reading with
    | nil => exact start
    | cons line rest ih =>
        rw [AllHold, List.forall_mem_cons] at lines
        exact ih lines.2 _ (start.step space newline lines.1)
  exact read.finished space newline

end DocComment

end ApiManual
