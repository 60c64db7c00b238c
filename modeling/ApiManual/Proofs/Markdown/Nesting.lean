import ApiManual.Proofs.Markdown.Stripping

/-!
# Links that stripping leaves

Stripping takes one entity after the other, each from left to right, and a link is found only
where its text holds no brackets.  So a link to a stripped entity can be left in a line in one
way: the line has two pairs of brackets, one right behind the other, which do not read as such a
link when it is the turn of the entity, but do so in the end.  Links with brackets in their text
are left like that, and so are links into which others are nested.

To see this, what stripping leaves is traced back to where it comes from.  Brackets are never
made, so every bracket that is left has its place in the line, and what is left between two of
them is what stripping leaves of the text between their places.
-/

namespace ApiManual

namespace Stripping

variable {id chars rest out before after text target line : List Char} {bracket : Char}

/-! ## Tracing back -/

/-- What stripping leaves of a text in front of another one. An opening bracket stays only where
no link begins, and whether one does can depend on the text that follows. -/
inductive Leaves (id rest : List Char) : List Char → List Char → Prop where
  | nil : Leaves id rest [] []
  | keep {char : Char} {chars out : List Char}
      (stays : char = '[' → ∀ name after, name ≠ [] → BracketFree name →
        chars ++ rest ≠ name ++ (linkEnd id ++ after))
      (later : Leaves id rest chars out) : Leaves id rest (char :: chars) (char :: out)
  | link {name chars out : List Char} (named : name ≠ []) (free : BracketFree name)
      (later : Leaves id rest chars out) :
      Leaves id rest ('[' :: (name ++ (linkEnd id ++ chars))) (name ++ out)

theorem leaves_strip (id chars : List Char) : Leaves id [] chars (strip id chars) := by
  fun_induction strip id chars with
  | case1 => exact .nil
  | case2 rest name after found ih =>
      obtain ⟨named, free, rfl⟩ := linkAfterBracket?_eq_some_iff.mp found
      exact .link named free ih
  | case3 rest missing ih =>
      refine .keep (fun _ name after named free whole => ?_) ih
      rw [List.append_nil] at whole
      rw [linkAfterBracket?_eq_some_iff.mpr ⟨named, free, whole⟩] at missing
      cases missing
  | case4 char rest other ih => exact .keep (fun opens => absurd opens other) ih

theorem Leaves.eq_strip (leaves : Leaves id rest chars out) : out = strip id chars := by
  induction leaves with
  | nil => exact strip_nil.symm
  | @keep char chars out stays _ ih =>
      by_cases opens : char = '['
      · subst opens
        rw [ih, strip_bracket]
        intro name after named free whole
        refine stays rfl name (after ++ rest) named free ?_
        rw [whole, List.append_assoc, List.append_assoc]
      · rw [ih, strip_cons_of_ne opens]
  | link named free _ ih => rw [ih, strip_link named free]

theorem Leaves.eq_nil (leaves : Leaves id rest chars []) : chars = [] := by
  generalize outEq : [] = out at leaves
  cases leaves with
  | nil => rfl
  | keep => cases outEq
  | link named => exact absurd (List.append_eq_nil_iff.mp outEq.symm).1 named

/-- A bracket lies behind text without brackets. -/
theorem split_of_bracketFree {text rest before after : List Char} {bracket : Char}
    (free : BracketFree text) (isBracket : isLinkText bracket = false)
    (equal : text ++ rest = before ++ bracket :: after) :
    ∃ later, before = text ++ later ∧ rest = later ++ bracket :: after := by
  rcases List.append_eq_append_iff.mp equal with ⟨later, split⟩ | ⟨inText, split, behind⟩
  · exact ⟨later, split⟩
  · cases inText with
    | nil => exact ⟨[], by simpa using split.symm, by simpa using behind.symm⟩
    | cons char inText =>
        cases behind
        rw [split, bracketFree_append, bracketFree_cons, isBracket] at free
        cases free.2.1

/-- A bracket that is left has its place in the text. When it opens, no link begins there. -/
theorem Leaves.split (leaves : Leaves id rest chars (before ++ bracket :: after))
    (isBracket : isLinkText bracket = false) :
    ∃ front back, chars = front ++ bracket :: back ∧
      Leaves id (bracket :: (back ++ rest)) front before ∧ Leaves id rest back after ∧
      (bracket = '[' → ∀ name later, name ≠ [] → BracketFree name →
        back ++ rest ≠ name ++ (linkEnd id ++ later)) := by
  generalize outEq : before ++ bracket :: after = out at leaves
  induction leaves generalizing before with
  | nil => cases before <;> cases outEq
  | @keep char chars out stays later ih =>
      cases before with
      | nil =>
          cases outEq
          exact ⟨[], chars, rfl, .nil, later, stays⟩
      | cons first before =>
          cases outEq
          obtain ⟨front, back, rfl, frontLeaves, backLeaves, opening⟩ := ih rfl
          refine ⟨_, back, rfl, .keep (fun opens name after named free whole => ?_) frontLeaves,
            backLeaves, opening⟩
          refine stays opens name after named free ?_
          rw [← whole, List.append_assoc, List.cons_append]
  | @link name chars out named free later ih =>
      obtain ⟨between, rfl, rfl⟩ := split_of_bracketFree free isBracket outEq.symm
      obtain ⟨front, back, rfl, frontLeaves, backLeaves, opening⟩ := ih rfl
      refine ⟨_, back, ?_, .link named free frontLeaves, backLeaves, opening⟩
      simp

/-! ## Links on lines -/

/-- A line holds a text in brackets and right behind it a target in brackets. -/
def Linked (text target line : List Char) : Prop :=
  '[' :: (text ++ linkEnd target) <:+: line

theorem linked_iff : Linked text target line ↔
    ∃ front back, line = front ++ '[' :: (text ++ ']' :: '[' :: (target ++ ']' :: back)) := by
  constructor
  · rintro ⟨front, back, whole⟩
    refine ⟨front, back, ?_⟩
    rw [← whole]
    simp [linkEnd]
  · rintro ⟨front, back, rfl⟩
    refine ⟨front, back, ?_⟩
    simp [linkEnd]

/-- What is linked on a stripped line was linked before by what stripping makes it of, and was
no link to the entity that is stripped. -/
theorem exists_linked_of_strip (linked : Linked text target (strip id line)) :
    ∃ name goal, Linked name goal line ∧ strip id name = text ∧ strip id goal = target ∧
      ¬ (name ≠ [] ∧ BracketFree name ∧ goal = id) := by
  obtain ⟨front, back, whole⟩ := linked_iff.mp linked
  have leaves := leaves_strip id line
  rw [whole] at leaves
  obtain ⟨front, inside, rfl, _, leaves, opening⟩ := leaves.split rfl
  obtain ⟨name, behind, rfl, nameLeaves, leaves, _⟩ := leaves.split rfl
  obtain ⟨between, goalOn, rfl, nothing, leaves, _⟩ := @Leaves.split _ _ _ [] _ _ leaves rfl
  obtain ⟨goal, back, rfl, goalLeaves, _, _⟩ := leaves.split rfl
  obtain rfl := nothing.eq_nil
  refine ⟨name, goal, linked_iff.mpr ⟨front, back, rfl⟩, nameLeaves.eq_strip.symm,
    goalLeaves.eq_strip.symm, ?_⟩
  rintro ⟨named, free, rfl⟩
  refine opening rfl name back named free ?_
  simp [linkEnd]

/-! ## Stripping several entities -/

/-- What stripping entities one after the other leaves of a text. -/
def stripAll (ids : List EntityId) (chars : List Char) : List Char :=
  ids.foldl (fun chars id => strip id.text.toList chars) chars

theorem strip_of_bracketFree (free : BracketFree chars) : strip id chars = chars := by
  have whole := @strip_append_of_bracketFree id chars [] free
  rwa [List.append_nil, strip_nil, List.append_nil] at whole

theorem stripAll_of_bracketFree {ids : List EntityId} (free : BracketFree chars) :
    stripAll ids chars = chars := by
  induction ids with
  | nil => rfl
  | cons id rest ih => rw [stripAll, List.foldl_cons, strip_of_bracketFree free, ← stripAll, ih]

/-- What is linked in the end was linked from the start by what stripping makes it of, and was at
no turn a link to the entity that was stripped. -/
theorem exists_linked_of_stripAll {ids : List EntityId}
    (linked : Linked text target (stripAll ids line)) :
    ∃ name goal, Linked name goal line ∧ stripAll ids name = text ∧ stripAll ids goal = target ∧
      ∀ earlier id later, ids = earlier ++ id :: later →
        ¬ (stripAll earlier name ≠ [] ∧ BracketFree (stripAll earlier name) ∧
          stripAll earlier goal = id.text.toList) := by
  induction ids generalizing line with
  | nil =>
      refine ⟨text, target, linked, rfl, rfl, fun earlier id later split => ?_⟩
      cases earlier <;> cases split
  | cons first rest ih =>
      obtain ⟨name, goal, between, nameEq, goalEq, turns⟩ := ih linked
      obtain ⟨source, sourceGoal, start, rfl, rfl, turn⟩ := exists_linked_of_strip between
      refine ⟨source, sourceGoal, start, nameEq, goalEq, fun earlier id later split => ?_⟩
      cases earlier with
      | nil =>
          cases split
          exact turn
      | cons other earlier =>
          cases split
          exact turns earlier id later rfl

/-- Where stripping entities makes a link to one of them, that link has been there: its text held
no brackets and its target was the entity. So no link to one of the entities has links nested in
its brackets that are stripped themselves. -/
def Unnested (ids : List EntityId) (line : List Char) : Prop :=
  ∀ name goal, Linked name goal line → ∀ id ∈ ids, BracketFree (stripAll ids name) →
    stripAll ids goal = id.text.toList → BracketFree name ∧ goal = id.text.toList

/-- The ways to cut a text at a mark. -/
def cuts (mark : List Char) : List Char → List (List Char × List Char)
  | [] => ((mark.isPrefixOf? []).map ([], ·)).toList
  | char :: rest =>
      ((mark.isPrefixOf? (char :: rest)).map ([], ·)).toList ++
        (cuts mark rest).map fun (before, after) => (char :: before, after)

theorem mem_cuts_iff {mark : List Char} (some : mark ≠ []) :
    (before, after) ∈ cuts mark chars ↔ chars = before ++ (mark ++ after) := by
  induction chars generalizing before with
  | nil =>
      simp only [cuts, Option.mem_toList, Option.map_eq_some_iff, Prod.mk.injEq,
        List.isPrefixOf?_eq_some_iff_append_eq, List.nil_eq, List.append_eq_nil_iff]
      grind
  | cons char rest ih =>
      simp only [cuts, List.mem_append, Option.mem_toList, Option.map_eq_some_iff, Prod.mk.injEq,
        List.isPrefixOf?_eq_some_iff_append_eq, List.mem_map, Prod.exists]
      cases before with
      | nil => simp [eq_comm]
      | cons first before =>
          simp [ih]
          grind

/-- All that is linked on a line. -/
def allLinked (line : List Char) : List (List Char × List Char) :=
  (cuts ['['] line).flatMap fun (_, inside) =>
    (cuts [']', '['] inside).flatMap fun (text, behind) =>
      (cuts [']'] behind).map fun (target, _) => (text, target)

theorem mem_allLinked_iff : (text, target) ∈ allLinked line ↔ Linked text target line := by
  simp only [allLinked, List.mem_flatMap, List.mem_map, Prod.exists, Prod.mk.injEq, linked_iff,
    mem_cuts_iff (List.cons_ne_nil _ _)]
  constructor
  · rintro ⟨front, _, rfl, _, _, rfl, _, back, rfl, rfl, rfl⟩
    exact ⟨front, back, rfl⟩
  · rintro ⟨front, back, rfl⟩
    exact ⟨front, _, rfl, _, _, rfl, _, back, rfl, rfl, rfl⟩

instance (ids : List EntityId) (line : List Char) : Decidable (Unnested ids line) :=
  decidable_of_iff (∀ linked ∈ allLinked line, ∀ id ∈ ids, BracketFree (stripAll ids linked.1) →
      stripAll ids linked.2 = id.text.toList → BracketFree linked.1 ∧ linked.2 = id.text.toList)
    ⟨fun every name goal linked => every (name, goal) (mem_allLinked_iff.mpr linked),
      fun unnested _ held => unnested _ _ (mem_allLinked_iff.mp held)⟩

/-- Without nested links, stripping leaves no link that has a text without brackets. -/
theorem not_linked_stripAll {ids : List EntityId} {id : EntityId}
    (idsFree : ∀ id ∈ ids, BracketFree id.text.toList) (unnested : Unnested ids line)
    (stripped : id ∈ ids) (named : text ≠ []) (free : BracketFree text) :
    ¬ Linked text id.text.toList (stripAll ids line) := by
  intro linked
  obtain ⟨name, goal, start, rfl, goalEq, turns⟩ := exists_linked_of_stripAll linked
  obtain ⟨nameFree, rfl⟩ := unnested name goal start id stripped free goalEq
  obtain ⟨earlier, later, split⟩ := List.append_of_mem stripped
  rw [stripAll_of_bracketFree nameFree] at named
  refine turns earlier id later split ⟨?_, ?_, ?_⟩
  · rwa [stripAll_of_bracketFree nameFree]
  · rwa [stripAll_of_bracketFree nameFree]
  · exact stripAll_of_bracketFree (idsFree id stripped)

/-- A link is left when the link that is nested in it goes only after its turn. -/
example : stripAll [⟨"type:Area"⟩, ⟨"type:Unit"⟩] "[ar[ea][type:Unit]][type:Area]".toList =
    "[area][type:Area]".toList := by decide +kernel

end Stripping

end ApiManual
