import ApiManual.Main
import ApiManual.Manual
import ApiManual.Options.Configuration
import ApiManual.Proofs.Catalog.Acceptance
import ApiManual.Proofs.Catalog.Ancestry
import ApiManual.Proofs.Catalog.EntityOrder
import ApiManual.Proofs.Catalog.Faults
import ApiManual.Proofs.Catalog.LinkSafe
import ApiManual.Proofs.DocComment.Blocks
import ApiManual.Proofs.DocComment.Characters
import ApiManual.Proofs.FileTree.LastText
import ApiManual.Proofs.FileTree.Writing
import ApiManual.Proofs.Manual.Anchors
import ApiManual.Proofs.Manual.ClosedLinks
import ApiManual.Proofs.Manual.Documented
import ApiManual.Proofs.Manual.EntityOrder
import ApiManual.Proofs.Manual.Failure
import ApiManual.Proofs.Manual.LinkTargets
import ApiManual.Proofs.Manual.Locations
import ApiManual.Proofs.Manual.OwnDocuments
import ApiManual.Proofs.Manual.PathsApart
import ApiManual.Proofs.Manual.Placements
import ApiManual.Proofs.Manual.SkippedContents
import ApiManual.Proofs.Manual.StrippedLinks
import ApiManual.Proofs.Markdown.Blocks
import ApiManual.Proofs.Markdown.Links
import ApiManual.Proofs.Markdown.Nesting
import ApiManual.Proofs.Markdown.Stripping
import ApiManual.Proofs.Page.Branches
import ApiManual.Proofs.Page.Closed
import ApiManual.Proofs.Page.Locality
import ApiManual.Proofs.Page.Members
import ApiManual.Proofs.Page.Prose
import ApiManual.Proofs.Page.Sections
import ApiManual.Proofs.Page.Signature
import ApiManual.Proofs.Page.Used
import ApiManual.Proofs.References.FirstUse
import ApiManual.Proofs.Registry.Calls
import ApiManual.Proofs.Run.Outcome
import ApiManual.Proofs.Site.Accounting
import ApiManual.Proofs.Site.Below
import ApiManual.Proofs.Site.Brackets
import ApiManual.Proofs.Site.Closed
import ApiManual.Proofs.Site.ContentsOrder
import ApiManual.Proofs.Site.Growth
import ApiManual.Proofs.Site.Independence
import ApiManual.Proofs.Site.MemberLocations
import ApiManual.Proofs.Site.PathParts
import ApiManual.Proofs.Site.Reporting
import ApiManual.Proofs.Site.Resolution
import ApiManual.Proofs.Site.Trace
import ApiManual.Proofs.Site.Walking
import ApiManual.Proofs.Text.LowerCase
import ApiManual.Proofs.TypeExpr.Links
import ApiManual.Proofs.TypeExpr.Precedence
import ApiManual.Proofs.TypeExpr.Reader
import ApiManual.Proofs.TypeExpr.StrippedLinks
import ApiManual.Proofs.TypeExpr.Styles
import ApiManual.Run
import ApiManual.Proofs.Site.RelativeLinks
import ApiManual.Proofs.DocComment.Examples
import ApiManual.Proofs.DocComment.Writing
import ApiManual.Proofs.Json.Layouts
import ApiManual.Proofs.Json.Records
import ApiManual.Proofs.Metadata.Document
import ApiManual.Proofs.TypeExpr.Occurrences
import ApiManual.Proofs.Manual.Extensions
import ApiManual.Proofs.Page.HeadingsApart
import ApiManual.Proofs.DocComment.Presentable
import ApiManual.Proofs.Manual.Endings
import ApiManual.Proofs.Markdown.Lists
import ApiManual.Proofs.Text.Slugs
