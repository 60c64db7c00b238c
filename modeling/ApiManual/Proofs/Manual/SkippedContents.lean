import ApiManual.Proofs.Manual.Failure
import ApiManual.Proofs.Page.Used
import ApiManual.Proofs.Site.Settling

/-!
# Leaving out the tables of contents

A table of contents links to headings of its own page, and a page uses every entity that it has a
heading for.  So the table adds nothing to what a document refers to: with it and without it the
same links are stripped from the content, the same entities are reported, and the same links are
defined at the end.  Where pages are placed does not depend on tables of contents at all.
-/

namespace ApiManual

/-- A document with some lines in front of its content. -/
def Document.after (document : Document) (front : List String) : Document :=
  { document with content := front ++ document.content }

/-- A page uses every entity that it has a heading for. -/
def Page.UsesHeadings (page : Page) : Prop :=
  ∀ heading ∈ Heading.listings page.headings, heading.id ∈ page.used.ids

namespace Site

variable {catalog : Catalog} {site : Site} {page : Page}

/-- With or without its table of contents, a page refers to what it uses. -/
theorem references_eq_used (uses : page.UsesHeadings) (showContents : Bool) :
    references catalog showContents page = page.used := by
  cases showContents with
  | false => rfl
  | true =>
      apply References.insertAll_of_subset
      intro id linked
      obtain ⟨entry, inEntries, heading, inEntry, rfl⟩ := Contents.mem_linkedIds.mp linked
      exact uses heading ((Contents.of_mem_entries inEntries).1 heading inEntry)

theorem settledAlike_of_usesHeadings (uses : page.UsesHeadings) (shown otherShown : Bool) :
    SettledAlike catalog catalog shown otherShown site site page where
  referred := (references_eq_used uses shown).trans (references_eq_used uses otherShown).symm
  resolved := fun _ => rfl

/-- The table of contents stands in front of what is written without it. -/
theorem documentAt_shown (uses : page.UsesHeadings) (path : String) :
    site.documentAt catalog true path page =
      ((site.documentAt catalog false path page).1.after (Contents.lines catalog page),
        (site.documentAt catalog false path page).2) := by
  have alike : SettledAlike catalog catalog true false site site page :=
    settledAlike_of_usesHeadings uses true false
  simp only [documentAt, Document.after, alike.strippedContent, alike.undocumented,
    alike.definitions, if_true, Bool.false_eq_true, if_false, List.nil_append, List.append_assoc]

/-- Documents are written at the places of their pages. -/
theorem locations_output (showContents : Bool) :
    (site.output catalog showContents).1.map (·.location) =
      site.documents.map fun entry => DocumentPath.standardize entry.1 := by
  rw [output_eq, List.map_map]
  rfl

theorem output_shown (uses : ∀ entry ∈ site.documents, entry.2.UsesHeadings) :
    site.output catalog true =
      (List.zipWith (fun entry document => document.after (Contents.lines catalog entry.2))
          site.documents (site.output catalog false).1,
        (site.output catalog false).2) := by
  rw [output_eq, output_eq, List.zipWith_map_right, List.zipWith_self]
  congr 1
  · apply List.map_congr_left
    intro entry held
    rw [documentAt_shown (uses entry held)]
  · apply List.flatMap_congr
    intro entry held
    rw [documentAt_shown (uses entry held)]

end Site

namespace Manual

variable {catalog : Catalog} {options : Options} {built : Site}

/-- The pages of a manual use every entity that they have headings for. -/
theorem usesHeadings_of_mem_documents (made : site catalog options = .ok built)
    {entry : String × Page} (written : entry ∈ built.documents) : entry.2.UsesHeadings := by
  rw [documents_of_site made] at written
  obtain ⟨path, entity, _, rfl⟩ := mem_trace_iff.mp (Site.mem_of_mem_settled written)
  intro heading shown
  exact Page.mem_used_of_mem_listings shown

/-- Leaving out the tables of contents changes nothing else. With them and without them the same
is reported, and making the manual fails with the same error or gives the same documents at the
same locations: with tables of contents, every document has the lines of its own one in front of
what is written without it, and no definition is added or lost. -/
theorem skipping_contents_changes_nothing_else (catalog : Catalog) (options : Options) :
    (∀ sink, ((generateInto catalog { options with skipContents := false }).run sink).2 =
      ((generateInto catalog { options with skipContents := true }).run sink).2) ∧
    ((∃ error, generate catalog { options with skipContents := false } = .error error ∧
        generate catalog { options with skipContents := true } = .error error) ∨
      ∃ built long short warnings, site catalog options = .ok built ∧
        generate catalog { options with skipContents := false } = .ok (long, warnings) ∧
        generate catalog { options with skipContents := true } = .ok (short, warnings) ∧
        long.map (·.location) = short.map (·.location) ∧
        short.map (·.location) =
          built.documents.map (fun entry => DocumentPath.standardize entry.1) ∧
        long = List.zipWith
          (fun entry document => document.after (Contents.lines catalog entry.2))
          built.documents short ∧
        ∀ path page, (path, page) ∈ built.documents →
          built.definitions catalog true path page =
            built.definitions catalog false path page) := by
  have placed : ∀ skip, generate catalog { options with skipContents := skip } =
      (site catalog options).map (·.output catalog (!skip)) := fun _ => rfl
  simp only [run_generateInto, placed]
  cases made : site catalog options with
  | error error => exact ⟨fun _ => rfl, .inl ⟨error, rfl, rfl⟩⟩
  | ok built =>
      have uses : ∀ entry ∈ built.documents, entry.2.UsesHeadings :=
        fun _ => usesHeadings_of_mem_documents made
      have longer := @Site.output_shown catalog built uses
      have warned : (built.output catalog true).2 = (built.output catalog false).2 := by
        rw [longer]
      have generated : (built.output catalog true) =
          ((built.output catalog true).1, (built.output catalog false).2) := Prod.ext rfl warned
      refine ⟨fun sink => congrArg (sink ++ ·) warned, .inr ⟨built, (built.output catalog true).1,
        (built.output catalog false).1, (built.output catalog false).2, rfl,
        congrArg Except.ok generated, rfl, ?_, Site.locations_output false,
        congrArg Prod.fst longer, ?_⟩⟩
      · rw [Site.locations_output, Site.locations_output]
      · intro path page written
        exact (Site.settledAlike_of_usesHeadings (uses _ written) true false).definitions path

end Manual

end ApiManual
