import SoliditySource.Braces
import SoliditySource.Command
import SoliditySource.Command.Files
import SoliditySource.Command.Invocation
import SoliditySource.Comment
import SoliditySource.Datum
import SoliditySource.Datum.Decode
import SoliditySource.Datum.Encode
import SoliditySource.Datum.Mismatch
import SoliditySource.Decimal.Shortest
import SoliditySource.Declaration
import SoliditySource.Document
import SoliditySource.Document.Edit
import SoliditySource.Document.Error
import SoliditySource.Document.Inspect
import SoliditySource.Formatter
import SoliditySource.Kind
import SoliditySource.Layout.Indent
import SoliditySource.Layout.Writer
import SoliditySource.Main
import SoliditySource.Manifest
import SoliditySource.Manifest.Parse
import SoliditySource.Manifest.Problem
import SoliditySource.Manifest.Sections
import SoliditySource.Manifest.Span
import SoliditySource.OrderedMap
import SoliditySource.Patch
import SoliditySource.Proofs.AbsentFields
import SoliditySource.Proofs.AssignmentSearch
import SoliditySource.Proofs.BraceScan
import SoliditySource.Proofs.CodeLine
import SoliditySource.Proofs.CommandAgreement
import SoliditySource.Proofs.Comment
import SoliditySource.Proofs.CommentLines
import SoliditySource.Proofs.DatumForms
import SoliditySource.Proofs.DocumentKeys
import SoliditySource.Proofs.DocumentRebuild
import SoliditySource.Proofs.DuplicateLabels
import SoliditySource.Proofs.EditCancellation
import SoliditySource.Proofs.EditHistory
import SoliditySource.Proofs.EditLocality
import SoliditySource.Proofs.FirstProblem
import SoliditySource.Proofs.FormattedBlocks
import SoliditySource.Proofs.FormattedLines
import SoliditySource.Proofs.Indentation
import SoliditySource.Proofs.KindLabel
import SoliditySource.Proofs.LevelledLines
import SoliditySource.Proofs.LineScan
import SoliditySource.Proofs.ManifestDocument
import SoliditySource.Proofs.OrderedMap
import SoliditySource.Proofs.PatchFields
import SoliditySource.Proofs.PatternLabel
import SoliditySource.Proofs.PositionalRecords
import SoliditySource.Proofs.RecordGrammar
import SoliditySource.Proofs.RecordRoundTrip
import SoliditySource.Proofs.RenderCompose
import SoliditySource.Proofs.RenderInjective
import SoliditySource.Proofs.RenderedLines
import SoliditySource.Proofs.RuleHistory
import SoliditySource.Proofs.SharedBatches
import SoliditySource.Proofs.SpanSearch
import SoliditySource.Proofs.Text
import SoliditySource.Proofs.TextLexer
import SoliditySource.Proofs.TextSearch
import SoliditySource.Proofs.ValueSource
import SoliditySource.Proofs.WellFormed
import SoliditySource.Render
import SoliditySource.Rules
import SoliditySource.SharedDocument
import SoliditySource.Text.Alphanumeric
import SoliditySource.Text.Blank
import SoliditySource.Text.Lines
import SoliditySource.Text.Printable
import SoliditySource.Text.Quoted
import SoliditySource.Text.Search
import SoliditySource.Toml.Data
import SoliditySource.Toml.Datetime
import SoliditySource.Toml.Node
import SoliditySource.Toml.Number
import SoliditySource.Toml.Parser
import SoliditySource.Toml.Quoted
import SoliditySource.Value
