import ClarityDelta.Change.Compare
import ClarityDelta.Change.Detect
import ClarityDelta.Cli.Arguments
import ClarityDelta.Cli.Commands
import ClarityDelta.Config.Environment
import ClarityDelta.Config.File
import ClarityDelta.Config.ItemList
import ClarityDelta.Config.Load
import ClarityDelta.Config.Merge
import ClarityDelta.Config.Settings
import ClarityDelta.Container.Checker
import ClarityDelta.Container.Runner
import ClarityDelta.Container.TreeGenerator
import ClarityDelta.Data.Checked
import ClarityDelta.Data.Decimal
import ClarityDelta.Data.Json.Print
import ClarityDelta.Data.Json.Read
import ClarityDelta.Data.Value
import ClarityDelta.Data.Yaml.Cursor
import ClarityDelta.Data.Yaml.Document
import ClarityDelta.Data.Yaml.Node
import ClarityDelta.Data.Yaml.Scalar
import ClarityDelta.Data.Yaml.Tag
import ClarityDelta.Data.Yaml.Token
import ClarityDelta.Fault
import ClarityDelta.Files.Exclusion
import ClarityDelta.Files.Membership
import ClarityDelta.Files.Path
import ClarityDelta.Files.StatusTime
import ClarityDelta.Files.Tree
import ClarityDelta.Files.Work
import ClarityDelta.Invocation.Call
import ClarityDelta.Logging.Clock
import ClarityDelta.Logging.Level
import ClarityDelta.Logging.Logger
import ClarityDelta.Logging.Setup
import ClarityDelta.Logging.Template
import ClarityDelta.Logging.Write
import ClarityDelta.Main
import ClarityDelta.Pipeline.Collaborators
import ClarityDelta.Pipeline.Run
import ClarityDelta.Proofs.Change.Edits
import ClarityDelta.Proofs.Change.Patch
import ClarityDelta.Proofs.Change.SameText
import ClarityDelta.Proofs.Container.ExitCode
import ClarityDelta.Proofs.Logging.Frame
import ClarityDelta.Proofs.Pipeline.Batch
import ClarityDelta.Proofs.Pipeline.Course
import ClarityDelta.Proofs.Pipeline.RunVerdict
import ClarityDelta.Proofs.Pipeline.Transcript
import ClarityDelta.Proofs.Source.Blocks
import ClarityDelta.Proofs.Source.DefinitionSpans
import ClarityDelta.Proofs.Source.DepthRun
import ClarityDelta.Proofs.Source.Extent
import ClarityDelta.Proofs.Source.HeaderMatch
import ClarityDelta.Proofs.Source.Lexing
import ClarityDelta.Proofs.Source.Weave
import ClarityDelta.Proofs.Text.Lines
import ClarityDelta.Proofs.Text.Run
import ClarityDelta.Proofs.Verification.Grouping
import ClarityDelta.Proofs.Verification.Printout
import ClarityDelta.Proofs.Verification.Reading
import ClarityDelta.Proofs.Verification.Sites
import ClarityDelta.Proofs.Verification.StateLineMatch
import ClarityDelta.Proofs.Verification.Truncation
import ClarityDelta.Record.Fields
import ClarityDelta.Record.Kind
import ClarityDelta.Report.Finding
import ClarityDelta.Report.Rule
import ClarityDelta.Report.Sarif
import ClarityDelta.Report.Summary
import ClarityDelta.Report.Write
import ClarityDelta.Revision.Repository
import ClarityDelta.Source.Definition
import ClarityDelta.Source.Header
import ClarityDelta.Source.Mask
import ClarityDelta.Source.Notes
import ClarityDelta.Source.Paren
import ClarityDelta.Source.Span
import ClarityDelta.Terminal.Layout
import ClarityDelta.Terminal.Markup
import ClarityDelta.Terminal.Shown
import ClarityDelta.Terminal.Style
import ClarityDelta.Text.Blank
import ClarityDelta.Text.Case
import ClarityDelta.Text.Encoding
import ClarityDelta.Text.Expression
import ClarityDelta.Text.Lines
import ClarityDelta.Text.Numeral
import ClarityDelta.Text.Printable
import ClarityDelta.Text.Quoted
import ClarityDelta.Text.Search
import ClarityDelta.Text.ShellWords
import ClarityDelta.Text.Utf8
import ClarityDelta.Verification.Counterexample
import ClarityDelta.Verification.LineCursor
import ClarityDelta.Verification.Plan
import ClarityDelta.Verification.Record
import ClarityDelta.Verification.Run
import ClarityDelta.Verification.StateLine
import ClarityDelta.Verification.Verdict
import ClarityDelta.Workspace
import ClarityDelta.Proofs.Pipeline.Trace
import ClarityDelta.Proofs.Data.Json.ReadBack
import ClarityDelta.Proofs.Report.Document
import ClarityDelta.Proofs.Report.Agreement
import ClarityDelta.Proofs.Cli.Collaborators
import ClarityDelta.Proofs.Cli.RunCommand
import ClarityDelta.Proofs.Verification.Pieces
import ClarityDelta.Proofs.Source.Harmless
import ClarityDelta.Proofs.Logging.Steady
import ClarityDelta.Proofs.Terminal.Closing
import ClarityDelta.Proofs.Cli.Detection
import ClarityDelta.Proofs.Container.Steady
import ClarityDelta.Proofs.Pipeline.Plain
import ClarityDelta.Proofs.Cli.Rendering
import ClarityDelta.Proofs.Change.Composition
import ClarityDelta.Proofs.Verification.Accounting
import ClarityDelta.Proofs.Container.Artifacts
import ClarityDelta.Proofs.Files.Membership
import ClarityDelta.Proofs.Files.Exclusion
import ClarityDelta.Proofs.Container.Switches
import ClarityDelta.Proofs.Container.ArtifactNames
import ClarityDelta.Proofs.Config.ListOption
import ClarityDelta.Proofs.Config.Reading
import ClarityDelta.Proofs.Config.WrittenItems
import ClarityDelta.Proofs.Source.Masking
import ClarityDelta.Proofs.Verification.CursorCalls
import ClarityDelta.Proofs.Logging.Opening
