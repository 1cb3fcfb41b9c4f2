import Offside.Cli.FileTree
import Offside.Cli.Option
import Offside.Cli.Request
import Offside.Cli.Run
import Offside.Config
import Offside.ConfigFile
import Offside.Data.Calendar
import Offside.Data.Shown
import Offside.Data.Value
import Offside.Diagnostic
import Offside.Document.Cache
import Offside.Document.Host
import Offside.Document.Uri
import Offside.Export
import Offside.Import
import Offside.Ir.Lowering
import Offside.Ir.Node
import Offside.Ir.ToMarkup
import Offside.Ir.ToTemplate
import Offside.Json
import Offside.Main
import Offside.Markup.Cursor
import Offside.Markup.Expression
import Offside.Markup.Literal
import Offside.Markup.Lowering
import Offside.Markup.Nested
import Offside.Markup.Node
import Offside.Markup.Program
import Offside.Markup.Reference
import Offside.Markup.Reference.Names
import Offside.Markup.Selection
import Offside.Markup.Tag
import Offside.Markup.TypeText
import Offside.Number.Double
import Offside.Number.Numeral
import Offside.Number.Shortest
import Offside.Options
import Offside.Proofs.Cli.Command
import Offside.Proofs.Cli.Ending
import Offside.Proofs.Cli.FileTree
import Offside.Proofs.Cli.Frame
import Offside.Proofs.Config
import Offside.Proofs.Config.Fault
import Offside.Proofs.Config.Field
import Offside.Proofs.Diagnostic
import Offside.Proofs.Document.Cache
import Offside.Proofs.Document.Failure
import Offside.Proofs.Document.Index
import Offside.Proofs.Document.Memory
import Offside.Proofs.Document.Refinement
import Offside.Proofs.Ir.Choices
import Offside.Proofs.Ir.Comment
import Offside.Proofs.Ir.Export
import Offside.Proofs.Ir.Guard
import Offside.Proofs.Ir.Image
import Offside.Proofs.Ir.Import
import Offside.Proofs.Ir.Inside
import Offside.Proofs.Ir.Lowering
import Offside.Proofs.Ir.RoundTrip
import Offside.Proofs.Ir.Skeleton
import Offside.Proofs.Json
import Offside.Proofs.Markup.Body
import Offside.Proofs.Markup.Containment
import Offside.Proofs.Markup.Content
import Offside.Proofs.Markup.Grammar
import Offside.Proofs.Markup.Location
import Offside.Proofs.Markup.Lowered
import Offside.Proofs.Markup.Lowers
import Offside.Proofs.Markup.Program
import Offside.Proofs.Markup.Read
import Offside.Proofs.Markup.Run
import Offside.Proofs.Markup.Shown
import Offside.Proofs.Markup.SingleLine
import Offside.Proofs.Markup.Tag
import Offside.Proofs.Markup.Writable
import Offside.Proofs.Markup.Written
import Offside.Proofs.Report
import Offside.Proofs.Script.Conditional
import Offside.Proofs.Script.Grammar
import Offside.Proofs.Script.Lexer
import Offside.Proofs.Script.Lines
import Offside.Proofs.Script.Value
import Offside.Proofs.Template.Bare
import Offside.Proofs.Template.Builder
import Offside.Proofs.Template.Composition
import Offside.Proofs.Template.Condition
import Offside.Proofs.Template.Content
import Offside.Proofs.Template.Convergence
import Offside.Proofs.Template.Element
import Offside.Proofs.Template.ElementLine
import Offside.Proofs.Template.Entries
import Offside.Proofs.Template.Entry
import Offside.Proofs.Template.Flat
import Offside.Proofs.Template.Flush
import Offside.Proofs.Template.Follows
import Offside.Proofs.Template.Growth
import Offside.Proofs.Template.Header
import Offside.Proofs.Template.Heading
import Offside.Proofs.Template.Heap
import Offside.Proofs.Template.Id
import Offside.Proofs.Template.Layout
import Offside.Proofs.Template.Ledger
import Offside.Proofs.Template.Line
import Offside.Proofs.Template.LineKind
import Offside.Proofs.Template.Located
import Offside.Proofs.Template.Margin
import Offside.Proofs.Template.Mended
import Offside.Proofs.Template.Move
import Offside.Proofs.Template.Noise
import Offside.Proofs.Template.Outline
import Offside.Proofs.Template.Parenthesis
import Offside.Proofs.Template.Pipe
import Offside.Proofs.Template.PipeLine
import Offside.Proofs.Template.Rebuild
import Offside.Proofs.Template.Region
import Offside.Proofs.Template.Relocate
import Offside.Proofs.Template.Reports
import Offside.Proofs.Template.Respace
import Offside.Proofs.Template.RoundTrip
import Offside.Proofs.Template.Row
import Offside.Proofs.Template.Says
import Offside.Proofs.Template.Search
import Offside.Proofs.Template.Shallow
import Offside.Proofs.Template.Slots
import Offside.Proofs.Template.Sound
import Offside.Proofs.Template.Span
import Offside.Proofs.Template.Spans
import Offside.Proofs.Template.Standing
import Offside.Proofs.Template.State
import Offside.Proofs.Template.Step
import Offside.Proofs.Template.Transition
import Offside.Proofs.Template.WellFormed
import Offside.Proofs.Template.Written
import Offside.Proofs.Text.Lines
import Offside.Proofs.Text.Quoted
import Offside.Proofs.Text.Trim
import Offside.Proofs.Text.Utf8
import Offside.Proofs.Text.Words
import Offside.Report
import Offside.Span
import Offside.Template.Builder
import Offside.Template.Condition
import Offside.Template.Element
import Offside.Template.Format
import Offside.Template.Header
import Offside.Template.Ledger
import Offside.Template.Line
import Offside.Template.Node
import Offside.Template.Outline
import Offside.Template.Pipe
import Offside.Template.Printer
import Offside.Template.Reader
import Offside.Text.Basic
import Offside.Text.Literal
import Offside.Text.Printable
import Offside.Text.Utf8
import Offside.Text.Word
import Offside.Yaml.Build
import Offside.Yaml.Fault
import Offside.Yaml.Kind
import Offside.Yaml.Meaning
import Offside.Yaml.Moment
import Offside.Yaml.Node
import Offside.Yaml.Place
import Offside.Yaml.Scalar.Block
import Offside.Yaml.Scalar.Plain
import Offside.Yaml.Scalar.Quoted
import Offside.Yaml.Token
import Offside.Yaml.Token.Scan
