import Stencil.Text.Blank
import Stencil.Text.Quoted
import Stencil.Decimal.Layout
import Stencil.Decimal.Reader
import Stencil.Value.Basic
import Stencil.Directive.Basic
import Stencil.Expr.Syntax
import Stencil.Expr.Token
import Stencil.Expr.Parser
import Stencil.Directive.Each
import Stencil.Directive.Import
import Stencil.Evaluation.Error
import Stencil.Evaluation.Basic
import Stencil.Forest.Builder
import Stencil.Program.Lowering
import Stencil.Program.Run
import Stencil.Json.Reader
import Stencil.Toml.Value
import Stencil.Session
import Stencil.FileSystem.Tree
import Stencil.FileSystem.TemplateDirectory
import Stencil.TestFile
import Stencil.CommandLine.Run
import Stencil.Main
import Stencil.Proofs.Forest.Sound
import Stencil.Proofs.Forest.SiblingForm
import Stencil.Proofs.Forest.InlineRun
import Stencil.Proofs.Program.Meaning
import Stencil.Proofs.Expr.Grammar
import Stencil.Proofs.Expr.Reading
import Stencil.Proofs.Expr.Sound
import Stencil.Proofs.Expr.Complete
import Stencil.Proofs.Expr.Argument
import Stencil.Proofs.Expr.Height
import Stencil.Proofs.Expr.Balance
import Stencil.Proofs.Segment.Argument
import Stencil.Proofs.Forest.Limits
import Stencil.Proofs.Forest.Import
import Stencil.Proofs.Forest.Nesting
import Stencil.Proofs.Program.Steps
import Stencil.Proofs.Program.Lockstep
import Stencil.Proofs.Program.Reserved
import Stencil.Proofs.Program.Mention
import Stencil.Proofs.Program.Frame
import Stencil.Proofs.Expr.ClauseFault
import Stencil.Proofs.Expr.Offset
import Stencil.Proofs.Forest.Origin
import Stencil.Proofs.Program.Faults
import Stencil.Proofs.Program.Location
import Stencil.Proofs.Program.Offset
import Stencil.Proofs.Segment.Partition
import Stencil.Proofs.Program.Literal
import Stencil.Proofs.Forest.Guards
import Stencil.Proofs.Expr.Lexing
import Stencil.Proofs.Directive.Each
import Stencil.Proofs.Expr.Adjacent
import Stencil.Proofs.Forest.Ignored
import Stencil.Proofs.Program.Acceptance
import Stencil.Proofs.Program.Rounds
import Stencil.Proofs.Program.Slots
import Stencil.Proofs.Program.RoundNumber
import Stencil.Proofs.Expr.Spelling
import Stencil.Proofs.Expr.Statements
import Stencil.Proofs.Expr.Calls
import Stencil.Proofs.Expr.FaultSpan
import Stencil.Proofs.Expr.Spans
import Stencil.Proofs.Program.UnknownCall
import Stencil.Proofs.Expr.Printer
import Stencil.Proofs.Expr.Roundtrip
import Stencil.Proofs.Decimal.Parts
import Stencil.Proofs.Decimal.Whole
import Stencil.Proofs.Decimal.Range
import Stencil.Proofs.Value.Distinct
import Stencil.Proofs.Value.Json
import Stencil.Proofs.Value.Entries
import Stencil.Proofs.Program.Binding
import Stencil.Proofs.Program.Canonical
import Stencil.Proofs.Value.Equality
import Stencil.Proofs.Value.Display
import Stencil.Proofs.Value.Escape
import Stencil.Proofs.Session.History
import Stencil.Proofs.TestFile.FrontMatter
import Stencil.Proofs.FileSystem.TemplateDirectory
