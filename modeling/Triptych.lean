import Triptych.Code.Fault
import Triptych.Code.Literal
import Triptych.Document.Parser
import Triptych.Document.Section
import Triptych.Document.Slots
import Triptych.Json.Parser
import Triptych.Json.Printer
import Triptych.Json.Quoted
import Triptych.Json.Value
import Triptych.Lint.Accessibility
import Triptych.Lint.Important
import Triptych.Lint.Indentation
import Triptych.Lint.Linter
import Triptych.Lint.Obsolete
import Triptych.Lint.Repetition
import Triptych.Lint.Rule
import Triptych.Main
import Triptych.Markup.Attributes
import Triptych.Markup.Error
import Triptych.Markup.Minify
import Triptych.Markup.Node
import Triptych.Markup.Parser
import Triptych.Markup.Printer
import Triptych.Markup.Token
import Triptych.Markup.Walk
import Triptych.Number.Binary64
import Triptych.Pipeline.Capability
import Triptych.Pipeline.Compile
import Triptych.Pipeline.Config
import Triptych.Pipeline.Describe
import Triptych.Pipeline.Error
import Triptych.Pipeline.Event
import Triptych.Pipeline.Options
import Triptych.Project.Arguments
import Triptych.Project.Command
import Triptych.Project.CommandLine
import Triptych.Project.Compile
import Triptych.Project.Config
import Triptych.Project.Console
import Triptych.Project.FileStore
import Triptych.Project.FileTree
import Triptych.Project.Help
import Triptych.Project.Init
import Triptych.Project.Lint
import Triptych.Project.Path
import Triptych.Project.Rehearsal
import Triptych.Report
import Triptych.Script.Check
import Triptych.Script.Inject
import Triptych.Script.Literal
import Triptych.Script.Mask
import Triptych.SortedMap
import Triptych.Stylesheet.Check
import Triptych.Stylesheet.Item
import Triptych.Stylesheet.Minify
import Triptych.Stylesheet.Value
import Triptych.Text.Basic
import Triptych.Text.CharSet
import Triptych.Text.Indentation
import Triptych.Text.Invisible
import Triptych.Text.Position
import Triptych.Text.Quoted
import Triptych.Text.Unassigned
import Triptych.Text.Width
import Triptych.Proofs.Document.Fragment
import Triptych.Proofs.Markup.Layout
import Triptych.Proofs.Markup.RoundTrip
import Triptych.Proofs.Pipeline.Weaving
import Triptych.Proofs.Code.Padding
import Triptych.Proofs.Code.Scanning
import Triptych.Proofs.Document.Places
import Triptych.Proofs.Pipeline.Lines
import Triptych.Proofs.Pipeline.Relocation
import Triptych.Proofs.Markup.Joining
import Triptych.Proofs.Markup.Minify
import Triptych.Proofs.Markup.Squeezing
import Triptych.Proofs.Pipeline.Dedenting
import Triptych.Proofs.Stylesheet.Minify
import Triptych.Proofs.Script.Descent
import Triptych.Proofs.Pipeline.Emitted
import Triptych.Proofs.Markup.Preservation
import Triptych.Proofs.Markup.SecondRun
import Triptych.Proofs.Stylesheet.Preludes
import Triptych.Proofs.Document.Composition
import Triptych.Proofs.Document.Languages
import Triptych.Proofs.Document.Order
import Triptych.Proofs.Markup.Elements
import Triptych.Proofs.Lint.Rules
import Triptych.Proofs.Lint.Findings
import Triptych.Proofs.Project.Paths
import Triptych.Proofs.Project.Writing
import Triptych.Proofs.Project.Artifacts
import Triptych.Proofs.Pipeline.Choosing
import Triptych.Proofs.Pipeline.Positions
import Triptych.Proofs.Pipeline.Settings
import Triptych.Proofs.Project.Scheduling
import Triptych.Proofs.Stylesheet.Counting
import Triptych.Proofs.Stylesheet.Faults
import Triptych.Proofs.Script.Lexemes
import Triptych.Proofs.Script.Nesting
import Triptych.Proofs.Script.LineEnds
import Triptych.Proofs.Code.LineEnds
import Triptych.Proofs.Script.Exporting
import Triptych.Proofs.Script.Masking
import Triptych.Proofs.Markup.Words
import Triptych.Proofs.Stylesheet.Spacing
import Triptych.Proofs.Markup.Unquoting
import Triptych.Proofs.Text.LineStarts
import Triptych.Proofs.Text.CommonIndent
import Triptych.Proofs.Document.Faults
import Triptych.Proofs.Report.Header
import Triptych.Proofs.Stylesheet.Values
import Triptych.Proofs.Stylesheet.Sizes
import Triptych.Proofs.Lint.Declarations
import Triptych.Proofs.Markup.Coverage
