import Primer.Decimal.Layout
import Primer.Decimal.Reading
import Primer.Decimal.Shortest
import Primer.Machine.Console
import Primer.Machine.Dialogue
import Primer.Machine.Eval
import Primer.Machine.RuntimeError
import Primer.Machine.Scope
import Primer.Main
import Primer.Number
import Primer.Program.Grammar
import Primer.Program.Node
import Primer.Program.Outline
import Primer.Program.ParseError
import Primer.Program.Parser
import Primer.Program.Printer
import Primer.Proofs.Decimal.Reading
import Primer.Proofs.Decimal.Rounding
import Primer.Proofs.Decimal.Shortest
import Primer.Proofs.Decimal.Writing
import Primer.Proofs.Evaluation.Alike
import Primer.Proofs.Evaluation.BareForms
import Primer.Proofs.Evaluation.Budget
import Primer.Proofs.Evaluation.Conversation
import Primer.Proofs.Evaluation.Correspondence
import Primer.Proofs.Evaluation.Counting
import Primer.Proofs.Evaluation.ErrorSpans
import Primer.Proofs.Evaluation.Fundamental
import Primer.Proofs.Evaluation.Interference
import Primer.Proofs.Evaluation.Invariant
import Primer.Proofs.Evaluation.Isolation
import Primer.Proofs.Evaluation.Locations
import Primer.Proofs.Evaluation.Operators
import Primer.Proofs.Evaluation.Placement
import Primer.Proofs.Evaluation.Reachability
import Primer.Proofs.Evaluation.Repetition
import Primer.Proofs.Evaluation.Saying
import Primer.Proofs.Evaluation.SpanBlind
import Primer.Proofs.Evaluation.Traceback
import Primer.Proofs.Lexing.Insertion
import Primer.Proofs.Lexing.Joining
import Primer.Proofs.Lexing.Reads
import Primer.Proofs.Lexing.Scanning
import Primer.Proofs.Lexing.Spacing
import Primer.Proofs.Lexing.Spelling
import Primer.Proofs.Lexing.Tiling
import Primer.Proofs.Lexing.Vocabulary
import Primer.Proofs.Lexing.Window
import Primer.Proofs.Machine.Bare
import Primer.Proofs.Machine.Bindings
import Primer.Proofs.Machine.Concealment
import Primer.Proofs.Machine.Inquiry
import Primer.Proofs.Machine.Protocol
import Primer.Proofs.Machine.ScopeGraph
import Primer.Proofs.Number.Exactness
import Primer.Proofs.Parsing.Carrying
import Primer.Proofs.Parsing.Completion
import Primer.Proofs.Parsing.Concatenation
import Primer.Proofs.Parsing.Conservation
import Primer.Proofs.Parsing.Constituents
import Primer.Proofs.Parsing.Diagonal
import Primer.Proofs.Parsing.FirstError
import Primer.Proofs.Parsing.Grammatical
import Primer.Proofs.Parsing.InStep
import Primer.Proofs.Parsing.Nesting
import Primer.Proofs.Parsing.Phrases
import Primer.Proofs.Parsing.Procedures
import Primer.Proofs.Parsing.Reading
import Primer.Proofs.Parsing.Run
import Primer.Proofs.Parsing.Seam
import Primer.Proofs.Parsing.Simulation
import Primer.Proofs.Parsing.SourceSpans
import Primer.Proofs.Parsing.SpanBlind
import Primer.Proofs.Parsing.Strata
import Primer.Proofs.Parsing.Termination
import Primer.Proofs.Parsing.Turn
import Primer.Proofs.Parsing.Unbudgeted
import Primer.Proofs.Parsing.Viability
import Primer.Proofs.Printing.Faithful
import Primer.Proofs.Printing.Lexing
import Primer.Proofs.Printing.Normalized
import Primer.Proofs.Printing.Parsing
import Primer.Proofs.Printing.Printable
import Primer.Proofs.Printing.RoundTrip
import Primer.Proofs.Printing.Tokens
import Primer.Proofs.Program.Bare
import Primer.Proofs.Program.Occurrence
import Primer.Proofs.Program.Placement
import Primer.Proofs.Program.Shift
import Primer.Proofs.Session.Framing
import Primer.Proofs.Session.IntegerTexts
import Primer.Proofs.Source.Coordinates
import Primer.Proofs.Source.Excerpts
import Primer.Proofs.Source.Positions
import Primer.Proofs.Text.Decoding
import Primer.Proofs.Value.Sequences
import Primer.Report.Diagnostic
import Primer.Report.Ink
import Primer.Report.Rich
import Primer.Session.CommandLine
import Primer.Session.Failure
import Primer.Session.FileFault
import Primer.Session.Folder
import Primer.Session.Run
import Primer.Session.Stream
import Primer.Source.Excerpt
import Primer.Source.Position
import Primer.Source.Span
import Primer.Text.Blank
import Primer.Text.Columns
import Primer.Text.Extending
import Primer.Text.Quoted
import Primer.Text.Ranges
import Primer.Text.Unprintable
import Primer.Text.Utf8
import Primer.Token.Basic
import Primer.Token.Keyword
import Primer.Token.Lexer
import Primer.Token.LexicalError
import Primer.Token.Precedence
import Primer.Value.Basic
import Primer.Value.Operators
