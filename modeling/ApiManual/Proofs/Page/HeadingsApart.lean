import ApiManual.Proofs.Manual.Documented
import ApiManual.Proofs.Text.Slugs

/-!
# Headings that are told apart

Each heading of a page is indexed under the path of the page and the slug of its title, whatever
comes below the page.  A slug keeps little of a title and does not count: overloads of a function
share it, and so do names that differ in what slugs drop.  So two headings of a page are told apart
exactly when the slugs of their titles differ.  For words of ASCII characters these are the words in
lower case.
-/

namespace ApiManual

/-! ## Slugs of words -/

/-- Whether a character is a letter or digit of ASCII or an underscore. -/
def isWordChar (char : Char) : Bool := char.toNat < 0x80 && isSlugChar char && char ≠ '-'

/-- Whether a title has letters, digits and underscores only. -/
def isPlainWord (title : String) : Bool := title.toList.all isWordChar

/-- A character that slugs keep and that is no dash. -/
def staysInSlugs (char : Char) : Bool := slugChar? char = some char && char ≠ '-'

/-- A character of a word is not blank, and what lower-casing makes of it stays in slugs. -/
theorem staysInSlugs_of_isWordChar {char : Char} (word : isWordChar char = true) :
    Text.isBlank char = false ∧ char ≠ Text.capitalSigma ∧
      (Text.lowerChar char).all staysInSlugs = true := by
  have ascii : ∀ code < 0x80, isWordChar (Char.ofNat code) = true →
      Text.isBlank (Char.ofNat code) = false ∧ Char.ofNat code ≠ Text.capitalSigma ∧
        (Text.lowerChar (Char.ofNat code)).all staysInSlugs = true := by
    decide +kernel
  have small : char.toNat < 0x80 := by
    simp only [isWordChar, Bool.and_eq_true, decide_eq_true_eq] at word
    exact word.1.1
  have same := ascii char.toNat small
  rw [Char.ofNat_toNat] at same
  exact same word

/-- The slug of a word is the word in lower case. -/
theorem slug_of_isPlainWord {title : String} (word : isPlainWord title = true) :
    slug title = Text.toLower title := by
  have each (char : Char) (inside : char ∈ title.toList) :=
    staysInSlugs_of_isWordChar (List.all_eq_true.mp word char inside)
  have trimmed : Text.trimChars title.toList = title.toList :=
    Text.dropBoth_eq_self_iff.mpr
      ⟨fun first isFirst => (each first (List.mem_of_mem_head? isFirst)).1,
        fun last isLast => (each last (List.mem_of_mem_getLast? isLast)).1⟩
  have noSigma : Text.capitalSigma ∉ title.toList := fun inside => (each _ inside).2.1 rfl
  have kept : ∀ made ∈ Text.lowerChars title.toList, slugChar? made = some made ∧ made ≠ '-' := by
    intro made inside
    rw [Text.lowerChars, Text.lowerAfter_of_not_mem noSigma, List.mem_flatMap] at inside
    obtain ⟨char, held, image⟩ := inside
    have stays := List.all_eq_true.mp (each char held).2.2 made image
    simpa only [staysInSlugs, Bool.and_eq_true, decide_eq_true_eq] using stays
  have whole : (Text.lowerChars title.toList).filterMap slugChar? =
      Text.lowerChars title.toList := by
    rw [List.filterMap_congr fun made inside => (kept made inside).1]
    exact List.filterMap_some
  have noDash : (Text.lowerChars title.toList).rdropWhile (· = '-') =
      Text.lowerChars title.toList :=
    List.rdropWhile_eq_self_iff.mpr fun some =>
      mt of_decide_eq_true (kept _ (List.getLast_mem some)).2
  rw [slug, slugChars_eq, trimmed, whole, noDash]
  rfl

/-! ## Headings of a page -/

namespace Page

variable {catalog : Catalog} {language : String} {entity : Entity} {identity : Identity}

/-- The headings of a page are told apart by their entities: a heading is the title of the page or
bears the name of a member, and an entity is no member of its own. -/
theorem title_eq_of_id_eq (registered : catalog.entity? entity.id = some entity)
    (own : identity.id = entity.id) {left right : Heading}
    (inLeft : left ∈ Heading.listings (render catalog language entity identity).headings)
    (inRight : right ∈ Heading.listings (render catalog language entity identity).headings)
    (same : left.id = right.id) : left.title = right.title := by
  obtain ⟨members, top, below⟩ := @headings_render_as catalog entity language identity own
  have notOwn : ∀ heading ∈ Heading.listings members, heading.id ≠ entity.id := by
    intro heading inside itself
    obtain ⟨group, _, member, inGroup, _, rfl⟩ := (below heading).mp inside
    obtain ⟨listed, found, _⟩ := mem_listed_iff.mp inGroup
    have same : member.id = entity.id := itself
    -- A container that lists itself would nest less deeply than itself.
    obtain rfl : member = entity := Option.some.inj (found.symm.trans (same ▸ registered))
    exact absurd (Catalog.depth_lt listed found) (Nat.lt_irrefl _)
  rw [top, Heading.listings, Heading.listings, List.append_nil, Heading.listing,
    List.mem_cons] at inLeft inRight
  cases inLeft with
  | inl leftTop =>
      cases inRight with
      | inl rightTop => rw [leftTop, rightTop]
      | inr rightBelow =>
          rw [leftTop] at same
          exact absurd same.symm (notOwn right rightBelow)
  | inr leftBelow =>
      cases inRight with
      | inl rightTop =>
          rw [rightTop] at same
          exact absurd same (notOwn left leftBelow)
      | inr rightBelow =>
          obtain ⟨_, _, member, inGroup, _, rfl⟩ := (below left).mp leftBelow
          obtain ⟨_, _, other, inOther, _, rfl⟩ := (below right).mp rightBelow
          have found := (mem_listed_iff.mp inGroup).2.1
          have otherFound := (mem_listed_iff.mp inOther).2.1
          dsimp only at same
          rw [same, otherFound] at found
          rw [Option.some.inj found]

end Page

namespace Site

variable {catalog : Catalog} {extension language : String}

/-- A page that is the first on its site has all its headings indexed, for each entity under the
title of its first one. -/
theorem exists_anchor?_add {page : Page} {heading : Heading} (path : String)
    (inside : heading ∈ Heading.listings page.headings) :
    ∃ first ∈ Heading.listings page.headings, first.id = heading.id ∧
      (add catalog extension path .empty page).1.anchor? heading.id =
        some (target path first.title) := by
  obtain ⟨first, found⟩ : ∃ first,
      (Heading.listings page.headings).find? (·.id = heading.id) = some first := by
    apply Option.isSome_iff_exists.mp
    exact List.find?_isSome.mpr ⟨heading, inside, decide_eq_true rfl⟩
  refine ⟨first, List.mem_of_find?_eq_some found, by simpa using List.find?_some found, ?_⟩
  rw [add_eq_replay, visits_eq, placed, anchor?_replay]
  have own (rest : List (String × Page)) : headings ((path, page.alone) :: rest) =
      (Heading.listings page.headings).map (path, ·) ++ headings rest := List.flatMap_cons
  have mapped : ((Heading.listings page.headings).map (path, ·)).find? (·.2.id = heading.id) =
      some (path, first) := by
    rw [List.find?_map]
    exact congrArg (Option.map _) found
  rw [own, List.find?_append, mapped]
  rfl

/-- Below the page of an entity nothing is refused, under whatever title it is rendered. -/
theorem refused?_visits_render (path : String) (entity : Entity) (identity : Identity) :
    refused? (visits catalog extension (some path)
      (Page.render catalog language entity identity)) = none := by
  have below := @visits_render catalog extension language path entity
  rw [visits_eq, Page.members_render, Catalog.placementsFrom_eq, List.map_cons] at below
  rw [visits_eq, Page.members_render, (List.cons.inj below).2, refused?, Option.map_eq_none_iff,
    List.find?_eq_none]
  intro visit inside
  cases inside with
  | head => exact Bool.false_ne_true
  | tail _ later =>
      obtain ⟨_, _, rfl⟩ := List.mem_map.mp later
      exact Bool.false_ne_true

theorem target_inj {path left right : String} :
    path ++ "#" ++ slug left = path ++ "#" ++ slug right ↔ slug left = slug right := by
  rw [← String.toList_inj, ← String.toList_inj]
  simp only [String.toList_append, List.append_cancel_left_eq]

/-- When the page of an entity is added to an empty site, under any title and at any path, each of
its headings is indexed under the path and the slug of its title. Headings for different entities
are told apart exactly when these slugs differ, and so if both titles are words, exactly when the
words differ in more than the case of letters. -/
theorem anchors_differ_iff {entity : Entity} {identity : Identity}
    (registered : catalog.entity? entity.id = some entity) (own : identity.id = entity.id)
    (language extension path : String) :
    let headings := Heading.listings (Page.render catalog language entity identity).headings
    ∃ site, add catalog extension path .empty (Page.render catalog language entity identity) =
        (site, none) ∧
      (∀ heading ∈ headings,
        site.anchor? heading.id = some (path ++ "#" ++ slug heading.title)) ∧
      ∀ left ∈ headings, ∀ right ∈ headings, left.id ≠ right.id →
        (site.anchor? left.id ≠ site.anchor? right.id ↔ slug left.title ≠ slug right.title) ∧
        (isPlainWord left.title = true → isPlainWord right.title = true →
          (site.anchor? left.id ≠ site.anchor? right.id ↔
            Text.toLower left.title ≠ Text.toLower right.title)) := by
  intro headings
  let page := Page.render catalog language entity identity
  have added : add catalog extension path .empty page =
      ((add catalog extension path .empty page).1, none) := by
    rw [add_eq_replay, refused?_visits_render]
    rfl
  have indexed : ∀ heading ∈ headings,
      (add catalog extension path .empty page).1.anchor? heading.id =
        some (path ++ "#" ++ slug heading.title) := by
    intro heading inside
    obtain ⟨first, inFirst, same, anchor⟩ :=
      @exists_anchor?_add catalog extension page heading path inside
    rw [anchor, Page.title_eq_of_id_eq registered own inFirst inside same]
    rfl
  refine ⟨_, added, indexed, ?_⟩
  intro left inLeft right inRight _
  rw [indexed left inLeft, indexed right inRight, Ne, Option.some_inj, target_inj]
  constructor
  · exact Iff.rfl
  · intro leftWord rightWord
    rw [slug_of_isPlainWord leftWord, slug_of_isPlainWord rightWord]

/-- A class with a method to read and an overloaded one to write. -/
def bufferClass : Entity where
  id := ⟨"class:Buffer"⟩
  name := "Buffer"
  parent := none
  location := ⟨"src/buffer.ts", 1, 1⟩
  doc := none
  declaration := .classType [] none []
    [⟨"method:read"⟩, ⟨"method:write"⟩, ⟨"method:write-at"⟩] false

/-- The class and its methods. -/
def buffers : Catalog where
  registry := {
    entities := [bufferClass,
      { id := ⟨"method:read"⟩, name := "read", parent := none
        location := ⟨"src/buffer.ts", 2, 3⟩, doc := none
        declaration := .method [] [] none false false false false },
      { id := ⟨"method:write"⟩, name := "write", parent := none
        location := ⟨"src/buffer.ts", 3, 3⟩, doc := none
        declaration := .method [] [] none false false false false },
      { id := ⟨"method:write-at"⟩, name := "write", parent := none
        location := ⟨"src/buffer.ts", 4, 3⟩, doc := none
        declaration := .method [] [] none false false false false }]
    entryPoints := []
    ids_nodup := by decide
    entryPoints_registered := by decide }
  references_registered := by decide
  lineages_end := by decide +kernel
  order := [⟨"class:Buffer"⟩, ⟨"method:read"⟩, ⟨"method:write"⟩, ⟨"method:write-at"⟩]
  order_containersFirst :=
    .cons (by decide) (by decide) (.cons (by decide) (by decide)
      (.cons (by decide) (by decide) (.cons (by decide) (by decide) .nil)))
  order_complete := by decide

/-- The page of the class. -/
def bufferPage : Page := Page.render buffers "typescript" bufferClass (.of bufferClass)

theorem exists_heading_of_mem {page : Page} {title : String} {id : EntityId}
    (inside : (title, id) ∈ (Heading.listings page.headings).map fun heading =>
      (heading.title, heading.id)) :
    ∃ heading ∈ Heading.listings page.headings, heading.title = title ∧ heading.id = id := by
  obtain ⟨heading, held, same⟩ := List.mem_map.mp inside
  exact ⟨heading, held, congrArg (·.1) same, congrArg (·.2) same⟩

/-- On its page, the method to read is told apart from one to write. -/
theorem anchors_of_buffer_differ :
    ∃ site, add buffers "md" "buffer.md" .empty bufferPage = (site, none) ∧
      site.anchor? ⟨"method:read"⟩ ≠ site.anchor? ⟨"method:write"⟩ := by
  have registered : buffers.entity? bufferClass.id = some bufferClass := rfl
  obtain ⟨site, added, _, apart⟩ :=
    anchors_differ_iff registered (rfl : (Identity.of bufferClass).id = bufferClass.id)
      "typescript" "md" "buffer.md"
  obtain ⟨read, inside, readTitle, readId⟩ :=
    @exists_heading_of_mem bufferPage "read" ⟨"method:read"⟩ (by decide +kernel)
  obtain ⟨write, insideToo, writeTitle, writeId⟩ :=
    @exists_heading_of_mem bufferPage "write" ⟨"method:write"⟩ (by decide +kernel)
  have differ : read.id ≠ write.id := by
    rw [readId, writeId]
    decide
  have words := (apart read inside write insideToo differ).2
  rw [readTitle, writeTitle, readId, writeId] at words
  exact ⟨site, added, (words (by decide) (by decide)).mpr (by decide)⟩

/-- On the same page, the overloads of the method to write are not told apart. -/
theorem anchors_of_overloads_agree :
    buffers.entity? bufferClass.id = some bufferClass ∧ bufferClass.kind = .classType ∧
    ∃ site, add buffers "md" "buffer.md" .empty bufferPage = (site, none) ∧
      ¬ ∀ left ∈ Heading.listings bufferPage.headings,
        ∀ right ∈ Heading.listings bufferPage.headings,
        left.id ≠ right.id → site.anchor? left.id ≠ site.anchor? right.id := by
  obtain ⟨write, inside, _, writeId⟩ :=
    @exists_heading_of_mem bufferPage "write" ⟨"method:write"⟩ (by decide +kernel)
  obtain ⟨overload, insideToo, _, overloadId⟩ :=
    @exists_heading_of_mem bufferPage "write" ⟨"method:write-at"⟩ (by decide +kernel)
  have added : (add buffers "md" "buffer.md" .empty bufferPage).2.isNone := by decide +kernel
  have agree : (add buffers "md" "buffer.md" .empty bufferPage).1.anchor? ⟨"method:write"⟩ =
      (add buffers "md" "buffer.md" .empty bufferPage).1.anchor? ⟨"method:write-at"⟩ := by
    decide +kernel
  refine ⟨rfl, rfl, _, Prod.ext rfl (Option.isNone_iff_eq_none.mp added), fun differ => ?_⟩
  have apart := differ write inside overload insideToo
  rw [writeId, overloadId] at apart
  exact apart (by decide) agree

end Site

end ApiManual
