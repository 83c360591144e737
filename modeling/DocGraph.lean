import DocGraph.Attachment
import DocGraph.Build
import DocGraph.Comment.Basic
import DocGraph.Comment.Group
import DocGraph.Comment.Line
import DocGraph.Comment.Link
import DocGraph.Comment.Paragraph
import DocGraph.Comment.TagText
import DocGraph.Config
import DocGraph.Diagnostic
import DocGraph.Draft.Accessor
import DocGraph.Draft.Basic
import DocGraph.Draft.Declared
import DocGraph.Draft.Documentation
import DocGraph.Draft.Kind
import DocGraph.Draft.Member
import DocGraph.Draft.Overload
import DocGraph.Draft.Parameter
import DocGraph.Draft.Virtual
import DocGraph.Entity.Basic
import DocGraph.Entity.Default
import DocGraph.Entity.Json
import DocGraph.Graph.Basic
import DocGraph.Graph.Query
import DocGraph.Json.Basic
import DocGraph.Json.Decimal
import DocGraph.Json.Decode
import DocGraph.Json.Printer
import DocGraph.Json.Reader
import DocGraph.Json.Token
import DocGraph.NamePath.Basic
import DocGraph.NamePath.Error
import DocGraph.NamePath.Json
import DocGraph.NamePath.Text
import DocGraph.NormalizedFile
import DocGraph.Proofs.AccessorPairs
import DocGraph.Proofs.BracketDepth
import DocGraph.Proofs.BracketGroups
import DocGraph.Proofs.BreadthFirst
import DocGraph.Proofs.CarriedDrafts
import DocGraph.Proofs.Circle
import DocGraph.Proofs.Coherence
import DocGraph.Proofs.Collecting
import DocGraph.Proofs.Collision
import DocGraph.Proofs.Conservation
import DocGraph.Proofs.Cutting
import DocGraph.Proofs.DefiningComments
import DocGraph.Proofs.Directives
import DocGraph.Proofs.DraftMarks
import DocGraph.Proofs.DraftOrder
import DocGraph.Proofs.Emptying
import DocGraph.Proofs.EndlessNesting
import DocGraph.Proofs.FaithfulText
import DocGraph.Proofs.Fencing
import DocGraph.Proofs.FileOrder
import DocGraph.Proofs.FinalVisibility
import DocGraph.Proofs.Grounding
import DocGraph.Proofs.Guttered
import DocGraph.Proofs.HandingUp
import DocGraph.Proofs.HopWalk
import DocGraph.Proofs.Indexing
import DocGraph.Proofs.Inheritance
import DocGraph.Proofs.JsonReading
import DocGraph.Proofs.JsonScalars
import DocGraph.Proofs.JsonText
import DocGraph.Proofs.KeptText
import DocGraph.Proofs.Landing
import DocGraph.Proofs.LatestWins
import DocGraph.Proofs.LendingRelations
import DocGraph.Proofs.LendingTurns
import DocGraph.Proofs.Lineage
import DocGraph.Proofs.Living
import DocGraph.Proofs.LookUps
import DocGraph.Proofs.MergedDirectives
import DocGraph.Proofs.Merging
import DocGraph.Proofs.Moving
import DocGraph.Proofs.Naming
import DocGraph.Proofs.NearestComment
import DocGraph.Proofs.Nesting
import DocGraph.Proofs.OpeningLine
import DocGraph.Proofs.Orphans
import DocGraph.Proofs.OverloadRuns
import DocGraph.Proofs.ParagraphBreaks
import DocGraph.Proofs.ParameterSources
import DocGraph.Proofs.ParameterText
import DocGraph.Proofs.PathGrammar
import DocGraph.Proofs.PathOrder
import DocGraph.Proofs.PathText
import DocGraph.Proofs.PatternNames
import DocGraph.Proofs.Places
import DocGraph.Proofs.PrototypeForms
import DocGraph.Proofs.PublicView
import DocGraph.Proofs.Rebuilding
import DocGraph.Proofs.RebuildingText
import DocGraph.Proofs.Reconciliation
import DocGraph.Proofs.RecordText
import DocGraph.Proofs.Referrers
import DocGraph.Proofs.RegistrySteps
import DocGraph.Proofs.Relations
import DocGraph.Proofs.ResolvedRuns
import DocGraph.Proofs.SeparateTags
import DocGraph.Proofs.Shadowing
import DocGraph.Proofs.SignatureUnion
import DocGraph.Proofs.SnapshotText
import DocGraph.Proofs.Supertypes
import DocGraph.Proofs.Table
import DocGraph.Proofs.TagParts
import DocGraph.Proofs.TextHeight
import DocGraph.Proofs.ThisMembers
import DocGraph.Proofs.Together
import DocGraph.Proofs.Trimming
import DocGraph.Proofs.TypeAlternatives
import DocGraph.Proofs.WrittenReference
import DocGraph.Registry.Basic
import DocGraph.Registry.Error
import DocGraph.Registry.Lends
import DocGraph.Registry.Marks
import DocGraph.Registry.Placement
import DocGraph.Registry.Reference
import DocGraph.Registry.Resolution
import DocGraph.Snapshot.Basic
import DocGraph.Snapshot.Json
import DocGraph.Source.Basic
import DocGraph.Source.Json
import DocGraph.Source.Span
import DocGraph.Table
import DocGraph.Tag.Basic
import DocGraph.Tag.Json
import DocGraph.Text.Blank
import DocGraph.Text.CaseIgnorable
import DocGraph.Text.Cased
import DocGraph.Text.CharRange
import DocGraph.Text.Cut
import DocGraph.Text.DefaultIgnorable
import DocGraph.Text.GraphemeExtend
import DocGraph.Text.Line
import DocGraph.Text.Lowercase
import DocGraph.Text.Printable
import DocGraph.Text.Quoted
import DocGraph.Tree
import DocGraph.Unseen
import DocGraph.Visibility
