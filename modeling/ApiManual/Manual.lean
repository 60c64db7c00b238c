import ApiManual.Metadata.Document
import ApiManual.Options
import ApiManual.Page.Render
import ApiManual.Site.Output

/-!
# Manuals

Every entry point of a catalog is rendered and placed, in order, and the site is
written out.  An entry point that cannot be placed stops the run.
-/

namespace ApiManual

namespace Catalog

def ofText (text : String) : Except Error Catalog := do
  ofRegistry (← Registry.ofText text)

end Catalog

namespace Manual

/-- Renders an entry point and places its page. -/
def addEntryPoint (catalog : Catalog) (options : Options) (site : Site)
    (id : EntityId) : Except Error Site :=
  match catalog.entity? id with
  | none => .error (.unknownEntryPoint id)
  | some entity =>
      let page := Page.render catalog options.language entity (.of entity)
      match site.addEntry catalog options.extension page with
      | (_, some error) => .error error
      | (site, none) => .ok site

def site (catalog : Catalog) (options : Options) : Except Error Site :=
  catalog.registry.entryPoints.foldlM (addEntryPoint catalog options) .empty

/-- The documents for a catalog, and the warnings about them. -/
def generate (catalog : Catalog) (options : Options) :
    Except Error (List Document × List Diagnostic) := do
  return (← site catalog options).output catalog (!options.skipContents)

end Manual

end ApiManual
