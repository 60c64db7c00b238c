import ApiManual.Proofs.Manual.LinkTargets
import ApiManual.Proofs.Site.Closed

/-!
# Closed links

Whatever looks like a link on a line of a document is defined at the end of the
document, and only once.  A line links to documented entities that the page refers to,
each of them gives one definition, and since references do not repeat, no other
definition is for the same identifier.
-/

namespace ApiManual

open Stripping (BracketFree)

namespace Markdown

/-- Whether a line defines the links to an identifier. -/
def defines (id : EntityId) (line : String) : Bool :=
  ("[" ++ id.text ++ "]: ").toList.isPrefixOf line.toList

theorem defines_linkDefinition {id : EntityId} {target : String} :
    defines id (linkDefinition id target) = true := by
  rw [defines, List.isPrefixOf_iff_prefix]
  exact ⟨target.toList, String.toList_append.symm⟩

/-- A definition is for one identifier only. -/
theorem eq_of_defines_linkDefinition {id other : EntityId} {target : String}
    (free : BracketFree id.text.toList) (otherFree : BracketFree other.text.toList)
    (defined : defines id (linkDefinition other target) = true) : id = other := by
  rw [defines, List.isPrefixOf_iff_prefix] at defined
  obtain ⟨rest, whole⟩ := defined
  simp only [linkDefinition, String.toList_append, List.append_assoc] at whole
  have behind := List.append_cancel_left whole
  obtain ⟨same, _⟩ := Stripping.append_bracket_inj free otherFree (by decide) (by decide) behind
  exact EntityId.eq_iff.mpr (String.toList_inj.mp same)

end Markdown

/-- A document ends in definitions, and every link on any of its lines is defined by
exactly one of them: the link of the text to its identifier. -/
structure Document.LinksDefined (document : Document) (definitions : List String)
    (link? : EntityId → Option String) : Prop where
  ending : definitions <:+ document.content
  once : ∀ line ∈ document.content, ∀ (text : String) (id : EntityId),
    text ≠ "" → id.text ≠ "" → BracketFree text.toList → BracketFree id.text.toList →
      (Markdown.link text id).toList <:+: line.toList →
        ∃ link, link? id = some link ∧
          definitions.filter (Markdown.defines id) = [Markdown.linkDefinition id link]

namespace Site

variable {catalog : Catalog} {site : Site} {showContents : Bool} {path : String} {page : Page}

/-- The one definition for an identifier among those of a page. -/
theorem filter_definitions {id : EntityId} {link : String} (pageClosed : page.Closed)
    (referred : id ∈ (references catalog showContents page).ids)
    (linked : site.link? catalog path id = some link) :
    (site.definitions catalog showContents path page).filter (Markdown.defines id) =
      [Markdown.linkDefinition id link] := by
  have safe : ∀ other ∈ (references catalog showContents page).ids, other.LinkSafe :=
    linkSafe_references pageClosed
  have nodup := (references catalog showContents page).nodup
  rw [definitions]
  obtain ⟨before, after, split⟩ := List.append_of_mem referred
  rw [split] at safe nodup ⊢
  rw [List.nodup_append, List.nodup_cons] at nodup
  have notBefore : id ∉ before := fun held =>
    nodup.2.2 id held id List.mem_cons_self rfl
  have others : ∀ ids ⊆ before ++ id :: after, id ∉ ids →
      (ids.filterMap (site.definition? catalog path)).filter (Markdown.defines id) = [] := by
    intro ids within fresh
    rw [List.filter_eq_nil_iff]
    intro line member defined
    obtain ⟨other, held, definition⟩ := List.mem_filterMap.mp member
    obtain ⟨target, _, rfl⟩ := Option.map_eq_some_iff.mp definition
    have same := Markdown.eq_of_defines_linkDefinition
      (safe id (List.mem_append_right _ List.mem_cons_self)).bracketFree
      (safe other (within held)).bracketFree defined
    rw [same] at fresh
    exact fresh held
  have own : site.definition? catalog path id = some (Markdown.linkDefinition id link) := by
    rw [definition?, linked]
    rfl
  rw [List.filterMap_append, List.filterMap_cons, own, List.filter_append, List.filter_cons,
    if_pos Markdown.defines_linkDefinition,
    others before (List.subset_append_left _ _) notBefore,
    others after (fun _ member => List.mem_append_right _ (List.mem_cons_of_mem _ member))
      nodup.2.1.1, List.nil_append]

/-- The links of the documents of a closed site are defined once each. -/
theorem Closed.linksDefined (closed : site.Closed) (placed : (path, page) ∈ site.documents) :
    (site.documentAt catalog showContents path page).1.LinksDefined
      (site.definitions catalog showContents path page) (site.link? catalog path) where
  ending := List.suffix_append _ _
  once := by
    intro line member text id named nonempty nameFree free found
    have links : Markdown.LinksTo (site.Leads catalog showContents page) line :=
      closed.linksTo_content placed line member
    obtain ⟨referred, documented⟩ := links.allowed_of_link named nonempty nameFree free found
    obtain ⟨target, resolved⟩ := Option.isSome_iff_exists.mp documented
    have linked : site.link? catalog path id =
        some (DocumentPath.relative (DocumentPath.directory path) target) := by
      rw [link?, resolved]
      rfl
    exact ⟨_, linked, filter_definitions (closed.pages _ placed) referred linked⟩

end Site

namespace Manual

/-- In a manual for a catalog without stray brackets every link on a line of a document,
also of its table of contents, is defined exactly once at the end of the document, as the
link to where its entity is documented. -/
theorem links_are_closed {catalog : Catalog} {options : Options}
    {documents : List Document} {warnings : List Diagnostic} (safe : catalog.LinkSafe)
    (languageFree : BracketFree options.language.toList)
    (extensionFree : BracketFree options.extension.toList)
    (generated : generate catalog options = .ok (documents, warnings)) :
    ∃ built, site catalog options = .ok built ∧
      ∀ document ∈ documents, ∃ path page, (path, page) ∈ built.documents ∧
        document.location = DocumentPath.standardize path ∧
        document.LinksDefined (built.definitions catalog (!options.skipContents) path page)
          (built.link? catalog path) := by
  obtain ⟨built, builtEq, output⟩ := generate_eq_ok_iff.mp generated
  have closed := Site.closed_of_site safe languageFree extensionFree builtEq
  refine ⟨built, builtEq, ?_⟩
  intro document written
  have documentsEq : (built.output catalog (!options.skipContents)).1 = documents := by
    rw [output]
  rw [← documentsEq] at written
  obtain ⟨_, outputs, rfl⟩ := List.mem_map.mp written
  obtain ⟨⟨path, page⟩, placed, rfl⟩ := List.mem_map.mp outputs
  exact ⟨path, page, placed, rfl, closed.linksDefined placed⟩

/-- The class refers to a function in a tuple next to a type that is not documented. -/
theorem links_of_shapes_are_closed :
    ∃ documents warnings, generate shapes .default = .ok (documents, warnings) ∧
      ∃ built, site shapes .default = .ok built ∧
        ∀ document ∈ documents, ∃ path page, (path, page) ∈ built.documents ∧
          document.location = DocumentPath.standardize path ∧
          document.LinksDefined (built.definitions shapes true path page)
            (built.link? shapes path) := by
  obtain ⟨documents, warnings, generated⟩ :=
    @exists_generated_of_isOk shapes .default (by decide +kernel)
  exact ⟨documents, warnings, generated,
    links_are_closed (by decide) (by decide) (by decide) generated⟩

end Manual

end ApiManual
