import Scorecard.Number.Binary64
import Scorecard.Number.Decimal
import Scorecard.Text.Blank
import Scorecard.Text.DecimalDigit
import Scorecard.Text.Lines
import Scorecard.Text.Lowercase
import Scorecard.Text.Printable
import Scorecard.Text.Word
import Scorecard.Text.Quoted
import Scorecard.Text.Utf8
import Scorecard.Fault
import Scorecard.Json.Problem
import Scorecard.Number.Basic
import Scorecard.Number.Numeral
import Scorecard.Data
import Scorecard.Timestamp
import Scorecard.Json.Reader
import Scorecard.Json.Writer
import Scorecard.FileSystem.Path
import Scorecard.Language
import Scorecard.Text.Pattern
import Scorecard.Analysis.Metrics
import Scorecard.Analysis.Nesting
import Scorecard.Analysis.LongFunctions
import Scorecard.Analysis.Naming
import Scorecard.Analysis.Probes
import Scorecard.Analysis.Rules
import Scorecard.FileSystem.Tree
import Scorecard.Notice
import Scorecard.Journal
import Scorecard.Analysis.Analyze
import Scorecard.Scoring
import Scorecard.Evaluation.Basic
import Scorecard.Evaluation.Payload
import Scorecard.Evaluation.Pipeline
import Scorecard.Evaluation.Prompt
import Scorecard.Report.Basic
import Scorecard.Report.Statistics
import Scorecard.Report.Reader
import Scorecard.Report.Markdown
import Scorecard.Yaml.Cursor
import Scorecard.Yaml.ScalarText
import Scorecard.Yaml.Token
import Scorecard.Yaml.Implicit
import Scorecard.Yaml.Node
import Scorecard.Yaml.Reader
import Scorecard.Yaml.Writer
import Scorecard.Config.Basic
import Scorecard.Config.Merge
import Scorecard.Config.Loading
import Scorecard.Config.Validation
import Scorecard.Config.Template
import Scorecard.Selection.Glob
import Scorecard.Selection.PathRule
import Scorecard.Selection.PathFilter
import Scorecard.Selection.Discovery
import Scorecard.CommandLine.Usage
import Scorecard.CommandLine.Grammar
import Scorecard.CommandLine.Command
import Scorecard.CommandLine.Session
import Scorecard.CommandLine.Submissions
import Scorecard.CommandLine.Run
import Scorecard.CommandLine.Invocation
import Scorecard.Main
import Scorecard.Proofs.Number.Rounding
import Scorecard.Proofs.Number.Value
import Scorecard.Proofs.Number.Arithmetic
import Scorecard.Proofs.Number.Order
import Scorecard.Proofs.Scoring.Monotone
import Scorecard.Proofs.Text.Lines
import Scorecard.Proofs.Text.Matching
import Scorecard.Proofs.Text.Indent
import Scorecard.Proofs.Text.LineEnds
import Scorecard.Proofs.Analysis.Bounds
import Scorecard.Proofs.Analysis.Append
import Scorecard.Proofs.Analysis.FinalNewline
import Scorecard.Proofs.Analysis.Measured
import Scorecard.Proofs.Analysis.Reindent
import Scorecard.Proofs.Evaluation.Fences
import Scorecard.Proofs.Display
import Scorecard.Proofs.Evaluation.Payload
import Scorecard.Proofs.Journal
import Scorecard.Proofs.Evaluation.Answers
import Scorecard.Proofs.Analysis.Warnings
import Scorecard.Proofs.Analysis.LineEnds
import Scorecard.Proofs.Evaluation.Coherence
import Scorecard.Proofs.Number.Digits
import Scorecard.Proofs.Number.Nearest
import Scorecard.Proofs.Number.Shortest
import Scorecard.Proofs.Json.Number
import Scorecard.Proofs.Entries
import Scorecard.Proofs.Edits
import Scorecard.Proofs.Json.Shape
import Scorecard.Proofs.Json.Text
import Scorecard.Proofs.Json.RoundTrip
import Scorecard.Proofs.Json.Written
import Scorecard.Proofs.FileSystem.ReadBack
import Scorecard.Proofs.Equality
import Scorecard.Proofs.Report.Kept
import Scorecard.Proofs.Report.Integers
import Scorecard.Proofs.Report.Origin
import Scorecard.Proofs.Report.Modest
import Scorecard.Proofs.Report.RoundTrip
import Scorecard.Proofs.Report.Ranking
import Scorecard.Proofs.Number.Finite
import Scorecard.Proofs.Report.Summable
import Scorecard.Proofs.Session
import Scorecard.Proofs.CommandLine.Stats
import Scorecard.Proofs.CommandLine.StoredReports
import Scorecard.Evaluation.Behaviour
import Scorecard.Evaluation.Pool
import Scorecard.Proofs.Evaluation.Pool
import Scorecard.Proofs.Evaluation.Workers
import Scorecard.Proofs.Denoted
import Scorecard.Proofs.Json.Digits
import Scorecard.Proofs.Report.Tolerance
import Scorecard.Proofs.Report.Nulls
import Scorecard.Proofs.Evaluation.Intake
import Scorecard.Proofs.Evaluation.WireForm
import Scorecard.Proofs.Config.Merge
import Scorecard.Proofs.Config.Loading
import Scorecard.Proofs.Text.Lowercase
import Scorecard.Proofs.Language
import Scorecard.Proofs.Config.Gathered
import Scorecard.Proofs.Config.Overriding
import Scorecard.Proofs.Config.Checked
import Scorecard.Proofs.Config.CheckedRoutes
import Scorecard.Proofs.Yaml.Written
import Scorecard.Proofs.Config.Shown
import Scorecard.Proofs.CommandLine.Frame
import Scorecard.Proofs.Scoring.Exact
import Scorecard.Proofs.Analysis.LineByLine
import Scorecard.Proofs.Analysis.LoopNesting
import Scorecard.Proofs.Analysis.NestedBlocks
import Scorecard.Proofs.Analysis.BraceFunctions
import Scorecard.Proofs.Analysis.IndentFunctions
import Scorecard.Proofs.Analysis.LoopWindows
import Scorecard.Proofs.Analysis.OrderedTokens
import Scorecard.Proofs.Number.Fractions
import Scorecard.Proofs.Number.LeadingBits
import Scorecard.Proofs.Number.HalfUp
import Scorecard.Proofs.Report.ExactMeans
import Scorecard.Proofs.Text.Occurrences
import Scorecard.Proofs.Analysis.PoorNames
import Scorecard.Proofs.Analysis.Credentials
import Scorecard.Proofs.Selection.Targets
import Scorecard.Proofs.Selection.ExcludedDirectories
import Scorecard.Proofs.Evaluation.Unfenced
import Scorecard.Proofs.Number.FixedWidth
import Scorecard.Proofs.Calendar
import Scorecard.Proofs.Timestamp
import Scorecard.Proofs.CommandLine.Moments
import Scorecard.Proofs.Selection.Languages
import Scorecard.Proofs.Evaluation.CodeBlock
import Scorecard.Proofs.Report.MarkdownTable
