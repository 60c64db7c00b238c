import ApiManual.Site.Output

/-!
# What a document depends on

A document is written by settling the references of its page one after the other: each of them is
defined at the end, or stripped from the content and reported.  So below the table of contents a
document depends on the page, on its references, and on what is resolved for these, and on nothing
else of the catalog and of the site.
-/

namespace ApiManual.Site

variable {first second : Catalog} {shown otherShown : Bool} {site other : Site} {page : Page}

/-- A page has the same references on two occasions, and the same is resolved for them. -/
structure SettledAlike (first second : Catalog) (shown otherShown : Bool) (site other : Site)
    (page : Page) : Prop where
  referred : references first shown page = references second otherShown page
  resolved : ∀ id, site.resolve? first id = other.resolve? second id

namespace SettledAlike

theorem undocumented (alike : SettledAlike first second shown otherShown site other page) :
    site.undocumented first shown page = other.undocumented second otherShown page := by
  simp only [Site.undocumented, alike.referred, alike.resolved]

theorem strippedContent (alike : SettledAlike first second shown otherShown site other page) :
    site.strippedContent first shown page = other.strippedContent second otherShown page := by
  rw [Site.strippedContent, Site.strippedContent, alike.undocumented]

theorem definitions (alike : SettledAlike first second shown otherShown site other page)
    (path : String) :
    site.definitions first shown path page = other.definitions second otherShown path page := by
  have defined : site.definition? first path = other.definition? second path := by
    funext id
    rw [definition?, definition?, link?, link?, alike.resolved]
  rw [Site.definitions, Site.definitions, alike.referred, defined]

/-- With the same table of contents and the same places of declaration, all that is written for
the page is the same. -/
theorem documentAt (alike : SettledAlike first second shown shown site other page)
    (contents : Contents.lines first page = Contents.lines second page)
    (entities : ∀ id, first.entity? id = second.entity? id) (path : String) :
    site.documentAt first shown path page = other.documentAt second shown path page := by
  simp only [Site.documentAt, contents, entities, alike.strippedContent, alike.undocumented,
    alike.definitions]

end SettledAlike

end ApiManual.Site
