import PadLang.Fault
import PadLang.Position
import PadLang.Colour
import PadLang.Ty
import PadLang.Binary64.Basic
import PadLang.Binary64.Shortest
import PadLang.Binary64.Reading
import PadLang.Text.Digits
import PadLang.Text.Ranges
import PadLang.Text.Ignorable
import PadLang.Text.Unprintable
import PadLang.Text.Extending
import PadLang.Text.Escape
import PadLang.Automaton
import PadLang.Token.Literal
import PadLang.Token.Basic
import PadLang.Token.Lexicon
import PadLang.Token.Scan
import PadLang.Syntax.Basic
import PadLang.Grammar.Cursor
import PadLang.Grammar.Expr
import PadLang.Grammar.Stmt
import PadLang.Slot
import PadLang.Scope.Basic
import PadLang.Typing.Complaint
import PadLang.Typing.Expr
import PadLang.Typing.Stmt
import PadLang.ReturnPaths
import PadLang.Analysis
import PadLang.Code.Basic
import PadLang.Code.Expr
import PadLang.Code.Stmt
import PadLang.Report
import PadLang.Build
import PadLang.Text.Outline
import PadLang.Syntax.Outline
import PadLang.Text.Utf8
import PadLang.Command.Arguments
import PadLang.Command.Basic
import PadLang.Command.Folder
import PadLang.Main
import PadLang.Proofs.Outcome
import PadLang.Proofs.Scope.Rows
import PadLang.Proofs.Scope.Symbols
import PadLang.Proofs.Context
import PadLang.Proofs.Layout
import PadLang.Proofs.Erasure
import PadLang.Proofs.Typing.Expr
import PadLang.Proofs.Typing.Stmt
import PadLang.Proofs.Typing.Program
import PadLang.Proofs.Pruning
import PadLang.Proofs.Analysis
import PadLang.Proofs.Code.Emission
import PadLang.Proofs.Code.Generation
import PadLang.Proofs.Grammar.Cursor
import PadLang.Proofs.Grammar.Expr
import PadLang.Proofs.Grammar.Stmt
import PadLang.Proofs.Scanning
import PadLang.Proofs.Totality
import PadLang.Proofs.Uses
import PadLang.Proofs.Typing.Uses
import PadLang.Proofs.Code.Uses
import PadLang.Proofs.Resolution
import PadLang.Proofs.Meaning
import PadLang.Proofs.Effects
import PadLang.Proofs.Simulation.Storage
import PadLang.Proofs.Simulation.Expr
import PadLang.Proofs.Simulation.Stmt
import PadLang.Proofs.Preservation
import PadLang.Proofs.Words
import PadLang.Proofs.Machine
import PadLang.Proofs.Typing.Rules
import PadLang.Proofs.Typing.Deciding
import PadLang.Proofs.Typing.Acceptance
import PadLang.Proofs.Typing.Exactness
import PadLang.Proofs.Flow.Lines
import PadLang.Proofs.Flow.Paths
import PadLang.Proofs.Flow.Balance
import PadLang.Proofs.Flow.Confinement
import PadLang.Proofs.Nesting
import PadLang.Proofs.Flow.Frames
import PadLang.Proofs.Flow.Storage
import PadLang.Proofs.Mirroring
import PadLang.Proofs.Grammar.Terminals
import PadLang.Proofs.Grammar.Spelling
import PadLang.Proofs.Typing.Erasure
import PadLang.Proofs.Code.Addressing
import PadLang.Proofs.Code.Renumbering
import PadLang.Proofs.DeadTails
import PadLang.Proofs.DeadCode
import PadLang.Proofs.Grammar.Lossless
import PadLang.Proofs.Grammar.Canonical
import PadLang.Proofs.Grammar.Taking
import PadLang.Proofs.Grammar.Precedence
import PadLang.Proofs.Grammar.Completeness
import PadLang.Proofs.Lexing.Longest
import PadLang.Proofs.Lexing.Lexemes
import PadLang.Proofs.Ordering
import PadLang.Proofs.Lexing.Partition
import PadLang.Proofs.Grammar.Recovery
import PadLang.Proofs.Code.Segments
import PadLang.Proofs.FunctionOrder
import PadLang.Proofs.Code.Doubling
import PadLang.Proofs.Code.Heights
import PadLang.Proofs.Simulation.Pure
import PadLang.Proofs.Flow.Initialisation
import PadLang.Proofs.Simulation.Colours
import PadLang.Proofs.Executions
import PadLang.Proofs.ReturnExactness
import PadLang.Proofs.Flow.Arguments
import PadLang.Proofs.Flow.Calls
import PadLang.Proofs.Blanks
import PadLang.Proofs.Isolation
import PadLang.Proofs.Grammar.Ending
import PadLang.Proofs.Removals
import PadLang.Proofs.Scope.Operations
import PadLang.Proofs.Scope.Lineage
import PadLang.Proofs.Lexing.Spacing
import PadLang.Proofs.Code.Reading
