import Tinct.Value.Merge
import Tinct.Text.Word
import Tinct.Text.Visible
import Tinct.Text.Width
import Tinct.Text.Lower
import Tinct.Text.Blank
import Tinct.Text.Position
import Tinct.Decimal.Shortest
import Tinct.Value.Show
import Tinct.Json.Writer
import Tinct.Json.Reader
import Tinct.Span
import Tinct.Stream
import Tinct.Edit
import Tinct.Files
import Tinct.Query.Grammar
import Tinct.Document.Store
import Tinct.Session.Serve
import Tinct.Settings.Write
import Tinct.Yaml.Document
import Tinct.Settings.Load
import Tinct.Journal.Logbook
import Tinct.Command.Run
import Tinct.Main
import Tinct.Proofs.Splice
import Tinct.Proofs.StoreRun
import Tinct.Proofs.EditHistory
import Tinct.Proofs.SessionRun
import Tinct.Proofs.LockBookkeeping
import Tinct.Proofs.WholeCall
import Tinct.Proofs.FreshTokens
import Tinct.Proofs.StreamContent
import Tinct.Proofs.TreeLifecycle
import Tinct.Proofs.CharOctets
import Tinct.Proofs.Coordinates
import Tinct.Proofs.ReadinessGate
import Tinct.Proofs.DocumentLines
import Tinct.Proofs.CallsInTurn
import Tinct.Proofs.CancelledCalls
import Tinct.Proofs.CallGroups
import Tinct.Proofs.GroupOrder
import Tinct.Proofs.CallRounds
import Tinct.Proofs.AtomicCancels
import Tinct.Proofs.SeparateDocuments
import Tinct.Proofs.TurnedCaptures
import Tinct.Proofs.RoundSteps
import Tinct.Proofs.SpanPolicy
import Tinct.Proofs.LayeredValues
import Tinct.Proofs.VariableLayer
import Tinct.Proofs.LayerFiles
import Tinct.Proofs.Verdicts
import Tinct.Proofs.SectionLayers
import Tinct.Proofs.CheckedFields
import Tinct.Proofs.LayerPrecedence
import Tinct.Proofs.IssueOrder
import Tinct.Proofs.LoadFailures
import Tinct.Proofs.CharBoundaries
import Tinct.Proofs.MovedPositions
import Tinct.Proofs.SmallestChange
import Tinct.Proofs.RowCoverage
import Tinct.Proofs.Mismatches
import Tinct.Proofs.LostReports
import Tinct.Proofs.Excerpts
import Tinct.Proofs.StableOrder
import Tinct.Proofs.FlatCaptures
import Tinct.Proofs.CaptureOrder
import Tinct.Proofs.BuilderRun
import Tinct.Proofs.NumberedNames
import Tinct.Proofs.ModifierMasks
import Tinct.Proofs.MergedPaths
import Tinct.Proofs.LegendRefusals
import Tinct.Proofs.ReducedPaths
import Tinct.Proofs.CheckedAgain
import Tinct.Proofs.SourceKinds
import Tinct.Proofs.CharStarts
import Tinct.Proofs.OffsetPoints
