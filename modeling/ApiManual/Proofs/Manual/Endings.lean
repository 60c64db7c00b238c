import ApiManual.Proofs.Manual.LinkTargets
import ApiManual.Proofs.Manual.Placements
import ApiManual.Proofs.Page.Endings

/-!
# What stands before definitions

The definitions of a document are written below the content of its page.  A definition cannot
interrupt a paragraph: if the content ended within one, the first definition would be read as its
next line, and the links to that entity would lead nowhere.  But content ends with an empty line
whatever its page shows, and stripping links leaves an empty line empty.
-/

namespace ApiManual

namespace Site

variable {catalog : Catalog} {site : Site} {page : Page}

/-- Content that ends with an empty line leaves one before the definitions. -/
theorem exists_content_documentAt (ended : page.content.getLast? = some "") (showContents : Bool)
    (path : String) : ∃ before, (site.documentAt catalog showContents path page).1.content =
      before ++ "" :: site.definitions catalog showContents path page := by
  have stripped : (site.strippedContent catalog showContents page).getLast? = some "" :=
    Stripping.getLast?_foldl_lines _ ended
  obtain ⟨front, whole⟩ := List.getLast?_eq_some_iff.mp stripped
  refine ⟨(if showContents then Contents.lines catalog page else []) ++ front, ?_⟩
  rw [documentAt, whole]
  simp only [List.append_assoc, List.singleton_append]

end Site

namespace Manual

variable {catalog : Catalog} {options : Options} {built : Site}

theorem getLast?_content_of_mem_documents (made : site catalog options = .ok built)
    {entry : String × Page} (written : entry ∈ built.documents) :
    entry.2.content.getLast? = some "" := by
  rw [documents_of_site made] at written
  obtain ⟨path, entity, _, rfl⟩ := mem_trace_iff.mp (Site.mem_of_mem_settled written)
  exact Page.getLast?_content_render catalog options.language entity (.of entity)

/-- No definition continues a paragraph. The page of an entity, under any identity and with any
comment, and every page below it have content, which ends with an empty line, however many links
are stripped from it. So the line before the definitions of a document is empty. -/
theorem definitions_follow_empty_line (catalog : Catalog) :
    (∀ (language : String) (entity : Entity) (identity : Identity) (page : Page),
      page.IsBelow (Page.render catalog language entity identity) →
        page.content.getLast? = some "" ∧
          ∀ ids : List EntityId,
            (ids.foldl (fun content id => Stripping.lines id content) page.content).getLast? =
              some "") ∧
      ∀ options documents warnings, generate catalog options = .ok (documents, warnings) →
        ∃ built, site catalog options = .ok built ∧
          ∀ document ∈ documents, ∃ path page before, (path, page) ∈ built.documents ∧
            document.location = DocumentPath.standardize path ∧
            document.content =
              before ++ "" :: built.definitions catalog (!options.skipContents) path page := by
  constructor
  · intro language entity identity page below
    obtain ⟨shown, name, rfl⟩ := Page.exists_render_of_isBelow below
    have ended := Page.getLast?_content_render catalog language shown name
    exact ⟨ended, fun ids => Stripping.getLast?_foldl_lines ids ended⟩
  · intro options documents warnings generated
    obtain ⟨built, made, output⟩ := generate_eq_ok_iff.mp generated
    refine ⟨built, made, fun document written => ?_⟩
    have documentsEq : (built.output catalog (!options.skipContents)).1 = documents := by
      rw [output]
    rw [← documentsEq] at written
    obtain ⟨_, outputs, rfl⟩ := List.mem_map.mp written
    obtain ⟨⟨path, page⟩, placed, rfl⟩ := List.mem_map.mp outputs
    obtain ⟨before, content⟩ := Site.exists_content_documentAt
      (getLast?_content_of_mem_documents made placed) (!options.skipContents) path
    exact ⟨path, page, before, placed, rfl, content⟩

/-- The documents of the shapes have definitions, and a link is stripped from one of them. -/
theorem definitions_of_shapes_follow_empty_line :
    ∃ documents warnings, generate shapes .default = .ok (documents, warnings) ∧
      ∃ built, site shapes .default = .ok built ∧
        ∀ document ∈ documents, ∃ path page before, (path, page) ∈ built.documents ∧
          document.location = DocumentPath.standardize path ∧
          document.content = before ++ "" :: built.definitions shapes true path page := by
  obtain ⟨documents, warnings, generated⟩ :=
    @exists_generated_of_isOk shapes .default (by decide +kernel)
  exact ⟨documents, warnings, generated,
    (definitions_follow_empty_line shapes).2 .default documents warnings generated⟩

end Manual

end ApiManual
