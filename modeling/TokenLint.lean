import TokenLint.BuildInfo
import TokenLint.ClassMap
import TokenLint.ClassMap.BuiltIn
import TokenLint.ClassMap.Cache
import TokenLint.ClassMap.Source
import TokenLint.ClassMap.TomlFormat
import TokenLint.ClassMap.YamlFormat
import TokenLint.Command.Check
import TokenLint.Command.Console
import TokenLint.Command.Fix
import TokenLint.Command.Options
import TokenLint.Command.Program
import TokenLint.Command.Settings
import TokenLint.Command.Show
import TokenLint.Command.Subcommand
import TokenLint.Command.Switch
import TokenLint.Command.Value
import TokenLint.Config
import TokenLint.Diagnostic.Bag
import TokenLint.Diagnostic.Basic
import TokenLint.Diagnostic.Fix
import TokenLint.Diagnostic.Severity
import TokenLint.Digest
import TokenLint.Disk
import TokenLint.Dump
import TokenLint.Dump.Codec
import TokenLint.Dump.File
import TokenLint.Dump.JsonFormat
import TokenLint.Dump.MessagePackFormat
import TokenLint.FileSet
import TokenLint.Fix.Apply
import TokenLint.Fix.Summary
import TokenLint.Json
import TokenLint.Json.Reader
import TokenLint.Main
import TokenLint.MessagePack
import TokenLint.Output
import TokenLint.Path
import TokenLint.Path.Height
import TokenLint.Progress
import TokenLint.Report
import TokenLint.Report.JsonReport
import TokenLint.Report.Pretty
import TokenLint.Report.Preview
import TokenLint.Report.Sarif
import TokenLint.Report.Short
import TokenLint.Report.Style
import TokenLint.Report.Summary
import TokenLint.Report.Tokens
import TokenLint.Rule
import TokenLint.Rule.ObjectManager
import TokenLint.Run.File
import TokenLint.Run.Pool
import TokenLint.Run.Registry
import TokenLint.Run.Tracing
import TokenLint.Table
import TokenLint.Text
import TokenLint.Text.Blank
import TokenLint.Text.Fold
import TokenLint.Text.Grapheme
import TokenLint.Text.Letter
import TokenLint.Text.Printable
import TokenLint.Text.Quoted
import TokenLint.Text.Template
import TokenLint.Text.Utf8
import TokenLint.Text.Width
import TokenLint.Time.Calendar
import TokenLint.Time.Duration
import TokenLint.Time.Timer
import TokenLint.Token.Builder
import TokenLint.Token.CallSite
import TokenLint.Token.Kind
import TokenLint.Token.Stream
import TokenLint.Toml.Document
import TokenLint.Toml.Parser
import TokenLint.Toml.Scalar
import TokenLint.Toml.Value
import TokenLint.Trace.Event
import TokenLint.Trace.Level
import TokenLint.Trace.Ring
import TokenLint.Trace.Session
import TokenLint.Trace.Span
import TokenLint.Trace.Tracer
import TokenLint.Yaml.Node
import TokenLint.Yaml.Resolve
import TokenLint.Yaml.Scalar
import TokenLint.Yaml.Scan
import TokenLint.Yaml.Token
import TokenLint.Proofs.ClassMap.Cache
import TokenLint.Proofs.ClassMap.Lookup
import TokenLint.Proofs.ClassMap.Payload
import TokenLint.Proofs.ClassMap.Session
import TokenLint.Proofs.ClassMap.Snapshot
import TokenLint.Proofs.Command.Action
import TokenLint.Proofs.Command.DiagnosticLimit
import TokenLint.Proofs.Config.Search
import TokenLint.Proofs.Diagnostic.Capacity
import TokenLint.Proofs.Diagnostic.Repetition
import TokenLint.Proofs.Disk
import TokenLint.Proofs.Dump.Edited
import TokenLint.Proofs.Dump.JsonRoundTrip
import TokenLint.Proofs.Dump.MessagePackRoundTrip
import TokenLint.Proofs.Dump.Positions
import TokenLint.Proofs.Dump.Reconstruction
import TokenLint.Proofs.Dump.Records
import TokenLint.Proofs.Dump.Shapes
import TokenLint.Proofs.Dump.Size
import TokenLint.Proofs.Dump.TokenArray
import TokenLint.Proofs.FileSet
import TokenLint.Proofs.FileSet.History
import TokenLint.Proofs.Fix.Accounting
import TokenLint.Proofs.Fix.Arrival
import TokenLint.Proofs.Fix.Deferred
import TokenLint.Proofs.Fix.Edits
import TokenLint.Proofs.Fix.Fates
import TokenLint.Proofs.Fix.Fits
import TokenLint.Proofs.Fix.FixedDump
import TokenLint.Proofs.Fix.Frame
import TokenLint.Proofs.Fix.Gather
import TokenLint.Proofs.Fix.Greedy
import TokenLint.Proofs.Fix.Guards
import TokenLint.Proofs.Fix.Names
import TokenLint.Proofs.Fix.Selection
import TokenLint.Proofs.Fix.Together
import TokenLint.Proofs.Fix.Transactions
import TokenLint.Proofs.Fix.Workspace
import TokenLint.Proofs.Json.Document
import TokenLint.Proofs.Json.Literal
import TokenLint.Proofs.Json.Margin
import TokenLint.Proofs.Json.Size
import TokenLint.Proofs.MessagePack
import TokenLint.Proofs.MessagePack.Size
import TokenLint.Proofs.Path
import TokenLint.Proofs.Path.Ancestors
import TokenLint.Proofs.Progress
import TokenLint.Proofs.Report.Preview
import TokenLint.Proofs.Report.RuleTable
import TokenLint.Proofs.Report.ShortLines
import TokenLint.Proofs.Report.ShortOrder
import TokenLint.Proofs.Rule.Alone
import TokenLint.Proofs.Rule.Convergence
import TokenLint.Proofs.Rule.Emission
import TokenLint.Proofs.Rule.Literal
import TokenLint.Proofs.Rule.ObjectManager
import TokenLint.Proofs.Rule.Relocation
import TokenLint.Proofs.Rule.Rewrite
import TokenLint.Proofs.Rule.Specification
import TokenLint.Proofs.Rule.Trivia
import TokenLint.Proofs.Run.Cancellation
import TokenLint.Proofs.Run.Collect
import TokenLint.Proofs.Run.Fairness
import TokenLint.Proofs.Run.Interference
import TokenLint.Proofs.Run.Loading
import TokenLint.Proofs.Run.News
import TokenLint.Proofs.Run.Pool
import TokenLint.Proofs.Run.Reference
import TokenLint.Proofs.Run.Registry
import TokenLint.Proofs.Run.Screen
import TokenLint.Proofs.Sorting
import TokenLint.Proofs.Table
import TokenLint.Proofs.Text.Decimal
import TokenLint.Proofs.Text.Trim
import TokenLint.Proofs.Text.Utf8
import TokenLint.Proofs.Token.CallSite
import TokenLint.Proofs.Token.Kind
import TokenLint.Proofs.Token.Search
import TokenLint.Proofs.Token.Trivia
import TokenLint.Proofs.Trace.Calls
import TokenLint.Proofs.Trace.Matching
import TokenLint.Proofs.Trace.Ring
