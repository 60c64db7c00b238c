import ApiManual.Site.Output

/-!
# Reporting while documents are written

The documents of a site can be written reference by reference: each reference of a document
gets a definition or is stripped from the content, and a reference that is stripped is reported
to a sink at once.  What is written that way is the output of the site, and the sink ends up
with the warnings of the output behind what it held before.
-/

namespace ApiManual

/-- Work that reports to a sink of diagnostics. -/
abbrev Reporting := StateM (List Diagnostic)

/-- Adds a diagnostic to the sink. -/
def report (diagnostic : Diagnostic) : Reporting Unit :=
  modify (· ++ [diagnostic])

namespace Site

section

variable (catalog : Catalog) (showContents : Bool) (site : Site)

/-- Settles a reference of the document at a path, given the content as it is stripped so far
and the definitions so far. -/
def settleReference (path : String) :
    List String × List String → EntityId → Reporting (List String × List String)
  | (content, definitions), id =>
      match site.definition? catalog path id with
      | some definition => return (content, definitions ++ [definition])
      | none => do
          report (.warning id (catalog.entity? id) undocumentedMessage)
          return (Stripping.lines id content, definitions)

/-- Writes the document at a path, settling its references one after the other. -/
def writeDocument (path : String) (page : Page) : Reporting Document := do
  let contents := if showContents then Contents.lines catalog page else []
  let (content, definitions) ← (references catalog showContents page).ids.foldlM
    (settleReference catalog site path) (page.content, [])
  return { location := DocumentPath.standardize path
           content := contents ++ content ++ definitions }

/-- Writes all documents, in order. -/
def writeDocuments : Reporting (List Document) :=
  site.documents.mapM fun (path, page) => site.writeDocument catalog showContents path page

end

variable {catalog : Catalog} {showContents : Bool} {site : Site} {path : String}

/-- A reference that is documented is defined. -/
theorem settleReference_of_resolved {id : EntityId} {target : String}
    (found : site.resolve? catalog id = some target) (content definitions : List String)
    (sink : List Diagnostic) :
    settleReference catalog site path (content, definitions) id sink =
      ((content, definitions ++ [Markdown.linkDefinition id
        (DocumentPath.relative (DocumentPath.directory path) target)]), sink) := by
  rw [settleReference, definition?_of_resolved found]
  rfl

/-- A reference that is not documented is stripped and reported. -/
theorem settleReference_of_unresolved {id : EntityId}
    (missing : site.resolve? catalog id = none) (content definitions : List String)
    (sink : List Diagnostic) :
    settleReference catalog site path (content, definitions) id sink =
      ((Stripping.lines id content, definitions),
        sink ++ [.warning id (catalog.entity? id) undocumentedMessage]) := by
  rw [settleReference, definition?_of_unresolved missing]
  rfl

/-- References that are settled one after the other strip the content, define what is documented
and report the rest. -/
theorem foldlM_settleReference (ids : List EntityId) (content definitions : List String)
    (sink : List Diagnostic) :
    ids.foldlM (settleReference catalog site path) (content, definitions) sink =
      let missing := ids.filter fun id => (site.resolve? catalog id).isNone
      ((missing.foldl (fun lines id => Stripping.lines id lines) content,
          definitions ++ ids.filterMap (site.definition? catalog path)),
        sink ++ missing.map fun id => .warning id (catalog.entity? id) undocumentedMessage) := by
  induction ids generalizing content definitions sink with
  | nil =>
      simp only [List.foldlM_nil, List.filter_nil, List.foldl_nil, List.filterMap_nil,
        List.map_nil, List.append_nil]
      rfl
  | cons id rest ih =>
      rw [List.foldlM_cons]
      cases found : site.resolve? catalog id with
      | some target =>
          simp only [bind, StateT.bind, settleReference_of_resolved found, ih, found,
            definition?_of_resolved found, List.filter_cons, List.filterMap_cons,
            Option.isNone_some, Bool.false_eq_true, if_false, List.append_assoc,
            List.singleton_append]
      | none =>
          simp only [bind, StateT.bind, settleReference_of_unresolved found, ih, found,
            definition?_of_unresolved found, List.filter_cons, List.filterMap_cons,
            Option.isNone_none, if_true, List.foldl_cons, List.map_cons, List.append_assoc,
            List.singleton_append]

/-- A document that is written while its references are settled is the document of the output,
and its warnings are reported. -/
theorem writeDocument_eq_documentAt (page : Page) (sink : List Diagnostic) :
    site.writeDocument catalog showContents path page sink =
      ((site.documentAt catalog showContents path page).1,
        sink ++ (site.documentAt catalog showContents path page).2) := by
  have settled := @foldlM_settleReference catalog site path
    (references catalog showContents page).ids page.content [] sink
  simp only [writeDocument, bind, StateT.bind, settled]
  rfl

/-- The documents that are written are the output of the site, and its warnings are reported in
order. -/
theorem writeDocuments_eq_output (sink : List Diagnostic) :
    site.writeDocuments catalog showContents sink =
      ((site.output catalog showContents).1, sink ++ (site.output catalog showContents).2) := by
  rw [writeDocuments, output]
  generalize site.documents = documents
  induction documents generalizing sink with
  | nil =>
      simp only [List.mapM_nil, List.map_nil, List.flatMap_nil, List.append_nil]
      rfl
  | cons document rest ih =>
      obtain ⟨path, page⟩ := document
      rw [List.mapM_cons]
      simp only [bind, StateT.bind, writeDocument_eq_documentAt, ih, List.map_cons,
        List.flatMap_cons, ← List.append_assoc]
      rfl

end Site

end ApiManual
