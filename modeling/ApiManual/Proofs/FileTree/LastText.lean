import ApiManual.Proofs.FileTree.Writing

/-!
# What is there after writing

A file that was written has the last text that was written to its place.  Writing makes
directories and leaves those that are there, so every path that was written to still leads where
it did, and the text can be read back from it.
-/

namespace ApiManual.FileTree

variable {tree next last : FileTree} {place reached : Place} {path text : String}
  {writes : List (String × String)}

/-- The last of the texts that are written to a place. -/
def lastText? (writes : List (String × String)) (place : Place) : Option String :=
  (writes.reverse.find? fun write => Place.ofPath write.1 = place).map (·.2)

theorem lastText?_cons (path text : String) (later : List (String × String)) (place : Place) :
    lastText? ((path, text) :: later) place =
      (lastText? later place).or (if Place.ofPath path = place then some text else none) := by
  rw [lastText?, List.reverse_cons, List.find?_append, Option.map_or, ← lastText?]
  by_cases here : Place.ofPath path = place
  · simp [here]
  · simp [here]

/-! ## Directories stay -/

/-- What is a directory in one tree is one in the next. -/
def DirectoriesStay (tree next : FileTree) : Prop :=
  ∀ place, tree.node? place = some .directory → next.node? place = some .directory

theorem DirectoriesStay.refl (tree : FileTree) : DirectoriesStay tree tree := fun _ here => here

theorem DirectoriesStay.trans (first : DirectoriesStay tree next)
    (later : DirectoriesStay next last) : DirectoriesStay tree last :=
  fun place here => later place (first place here)

theorem directoriesStay_insert {node : Node} (replaced : tree.node? place ≠ some .directory) :
    DirectoriesStay tree (tree.insert place node) := by
  intro other here
  have elsewhere : other ≠ place := fun same => replaced (same ▸ here)
  rw [node?_insert tree place other node (steps_ne_nil replaced), if_neg elsewhere, here]

/-- A path that can be followed still leads where it did. -/
theorem DirectoriesStay.foldlM_step? (stay : DirectoriesStay tree next)
    {segments : List (List Char)} (led : segments.foldlM tree.step? place = some reached) :
    segments.foldlM next.step? place = some reached := by
  induction segments generalizing place with
  | nil => exact led
  | cons segment rest ih =>
      rw [List.foldlM_cons] at led ⊢
      obtain ⟨entered, step, later⟩ := Option.bind_eq_some_iff.mp led
      have here : tree.node? place = some .directory := by
        unfold step? at step
        split at step
        · assumption
        · cases step
      have again : next.step? place segment = some entered := by
        rw [step?, if_pos here] at step
        rw [step?, if_pos (stay place here), step]
      rw [again]
      exact ih later

/-- A step that makes what is missing leads to a directory. -/
theorem directoriesStay_of_makeStep? {segment : List Char}
    (made : makeStep? (tree, place) segment = some (next, reached)) :
    DirectoriesStay tree next ∧ next.node? reached = some .directory := by
  unfold makeStep? at made
  dsimp only at made
  split at made
  · next here =>
      cases made
      exact ⟨.refl _, here⟩
  · cases made
  · next nothing =>
      have missing : tree.node? (place.enter segment) ≠ some .directory := by
        rw [nothing]
        exact nofun
      split at made
      · cases made
        refine ⟨directoriesStay_insert missing, ?_⟩
        rw [node?_insert _ _ _ _ (steps_ne_nil missing), if_pos rfl]
      · cases made

/-- The directories that are made on the way can be followed afterwards. -/
theorem foldlM_step?_of_foldlM_makeStep? {segments : List (List Char)}
    (made : segments.foldlM makeStep? (tree, place) = some (next, reached))
    (start : tree.node? place = some .directory) :
    DirectoriesStay tree next ∧ segments.foldlM next.step? place = some reached ∧
      next.node? reached = some .directory := by
  induction segments generalizing tree place with
  | nil =>
      cases made
      exact ⟨.refl _, rfl, start⟩
  | cons segment rest ih =>
      rw [List.foldlM_cons] at made
      obtain ⟨⟨between, entered⟩, step, later⟩ := Option.bind_eq_some_iff.mp made
      obtain ⟨first, isDirectory⟩ := directoriesStay_of_makeStep? step
      obtain ⟨stay, led, goal⟩ := ih later isDirectory
      refine ⟨first.trans stay, ?_, goal⟩
      rw [List.foldlM_cons, step?, if_pos (stay place (first place start)),
        ← (makeStep?_eq_some step).1]
      exact led

theorem node?_startOf (tree : FileTree) (path : List Char) :
    tree.node? (Place.startOf path) = some .directory := by
  have begins : (Place.startOf path).steps = [] := by
    unfold Place.startOf
    split <;> rfl
  rw [node?, if_pos begins]

/-- After a text is written to a path, the path leads to its place. -/
theorem follow?_write? (written : tree.write? path text = some next) :
    DirectoriesStay tree next ∧ next.follow? path = some (Place.ofPath path) := by
  obtain ⟨segments, final, between, split, goal, made, notDirectory, rfl⟩ :=
    exists_of_write? written
  obtain ⟨stay, led, above⟩ := foldlM_step?_of_foldlM_makeStep? made (node?_startOf tree _)
  have kept : DirectoriesStay between (between.insert (Place.ofPath path) (.file text)) :=
    directoriesStay_insert notDirectory
  refine ⟨stay.trans kept, ?_⟩
  rw [follow?, split, List.foldlM_append, kept.foldlM_step? led]
  rw [Option.bind_eq_bind, Option.bind_some, List.foldlM_cons, step?, if_pos (kept _ above), ← goal]
  rfl

/-! ## Texts -/

/-- After a text is written to a path, it is the text of the file at its place. -/
theorem textAt?_write?_self (written : tree.write? path text = some next) :
    next.textAt? (Place.ofPath path) = some text := by
  obtain ⟨_, _, between, _, _, _, notDirectory, rfl⟩ := exists_of_write? written
  rw [textAt?, node?_insert _ _ _ _ (steps_ne_nil notDirectory), if_pos rfl]

/-- A tree is what another one becomes when texts are written to paths: files have the last text
that was written to their place, and otherwise the text that they had. -/
structure Written (tree next : FileTree) (writes : List (String × String)) : Prop where
  texts : ∀ place, next.textAt? place = (lastText? writes place).or (tree.textAt? place)
  readable : ∀ write ∈ writes, next.read? write.1 = lastText? writes (Place.ofPath write.1)

/-- The paths of texts that are all written lead to their places. -/
theorem follow?_writeAll (done : tree.writeAll writes = (next, none)) :
    DirectoriesStay tree next ∧
      ∀ write ∈ writes, next.follow? write.1 = some (Place.ofPath write.1) := by
  induction writes generalizing tree with
  | nil =>
      cases done
      exact ⟨.refl _, nofun⟩
  | cons write later ih =>
      obtain ⟨path, text⟩ := write
      rw [writeAll] at done
      cases written : tree.write? path text with
      | none =>
          rw [written] at done
          cases done
      | some between =>
          rw [written] at done
          obtain ⟨first, led⟩ := follow?_write? written
          obtain ⟨stay, others⟩ := ih done
          refine ⟨first.trans stay, List.forall_mem_cons.mpr ⟨?_, others⟩⟩
          exact stay.foldlM_step? led

/-- Every place has the last text that was written to it. -/
theorem textAt?_of_writeAll (done : tree.writeAll writes = (next, none)) (place : Place) :
    next.textAt? place = (lastText? writes place).or (tree.textAt? place) := by
  induction writes generalizing tree with
  | nil =>
      cases done
      rfl
  | cons write later ih =>
      obtain ⟨path, text⟩ := write
      rw [writeAll] at done
      cases written : tree.write? path text with
      | none =>
          rw [written] at done
          cases done
      | some between =>
          rw [written] at done
          rw [ih done, lastText?_cons, Option.or_assoc]
          congr 1
          by_cases here : Place.ofPath path = place
          · rw [if_pos here, Option.some_or, ← here, textAt?_write?_self written]
          · rw [if_neg here, Option.none_or, textAt?_write? written (Ne.symm here)]

theorem isSome_lastText? {write : String × String} (held : write ∈ writes) :
    (lastText? writes (Place.ofPath write.1)).isSome := by
  rw [lastText?, Option.isSome_map, List.find?_isSome]
  exact ⟨write, List.mem_reverse.mpr held, by simp⟩

theorem written_of_writeAll (done : tree.writeAll writes = (next, none)) :
    Written tree next writes where
  texts := textAt?_of_writeAll done
  readable := by
    intro write held
    obtain ⟨text, found⟩ := Option.isSome_iff_exists.mp (isSome_lastText? held)
    rw [read?, (follow?_writeAll done).2 write held, Option.bind_some, textAt?_of_writeAll done,
      found]
    rfl

/-- Texts are all written, or those before the first that cannot be written. -/
theorem writeAll_cases (tree : FileTree) (writes : List (String × String)) :
    (∃ next, tree.writeAll writes = (next, none)) ∨
      ∃ before path text after next, writes = before ++ (path, text) :: after ∧
        tree.writeAll before = (next, none) ∧ next.write? path text = none ∧
        tree.writeAll writes = (next, some path) := by
  induction writes generalizing tree with
  | nil => exact .inl ⟨tree, rfl⟩
  | cons write later ih =>
      obtain ⟨path, text⟩ := write
      cases written : tree.write? path text with
      | none =>
          refine .inr ⟨[], path, text, later, tree, rfl, rfl, written, ?_⟩
          rw [writeAll, written]
      | some between =>
          have rest : ∀ others : List (String × String),
              tree.writeAll ((path, text) :: others) = between.writeAll others := by
            intro others
            rw [writeAll, written]
          rcases ih between with ⟨next, done⟩ | stopped
          · exact .inl ⟨next, (rest _).trans done⟩
          · obtain ⟨before, path', text', after, next, rfl, done, stuck, failed⟩ := stopped
            exact .inr ⟨(path, text) :: before, path', text', after, next, rfl,
              (rest _).trans done, stuck, (rest _).trans failed⟩

end ApiManual.FileTree
