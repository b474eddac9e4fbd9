import IntScript.Token.Lexer
import IntScript.Program
import IntScript.Operator.Evaluation
import IntScript.Program.Source
import IntScript.Program.Printer
import IntScript.Program.Outline
import IntScript.Scope.Store
import IntScript.Interpreter
import IntScript.Diagnostic.Terminal
import IntScript.Scope.Inspection
import IntScript.Command.Options
import IntScript.Command.Listing
import IntScript.Main
import IntScript.Proofs.Printing.Openings
import IntScript.Proofs.Lexing
import IntScript.Proofs.Grammar.Greedy
import IntScript.Proofs.Lexing.Interning
import IntScript.Proofs.Printing.PrintedText
import IntScript.Proofs.Printing.RoundTrip
import IntScript.Proofs.Scope.Lookup
import IntScript.Proofs.Machine.Discipline
import IntScript.Proofs.Machine.Runs
import IntScript.Proofs.Semantics
import IntScript.Proofs.Semantics.Agreement
import IntScript.Proofs.Semantics.Execution
import IntScript.Proofs.Semantics.Derivation
import IntScript.Proofs.Semantics.Adequacy
import IntScript.Proofs.Machine.Declarations
import IntScript.Proofs.Nesting
import IntScript.Proofs.Nesting.Sites
import IntScript.Proofs.Machine.Start
import IntScript.Proofs.Nesting.LexicalScoping
import IntScript.Proofs.Machine.Failures
import IntScript.Proofs.Machine.Homes
import IntScript.Proofs.Machine.Confinement
import IntScript.Proofs.Machine.Framing
import IntScript.Proofs.Machine.Calls
import IntScript.Proofs.Machine.Activations
import IntScript.Proofs.Machine.Balance
import IntScript.Proofs.Machine.Truncation
import IntScript.Proofs.Machine.Backtraces
import IntScript.Proofs.Renaming
import IntScript.Proofs.Renaming.Parsing
import IntScript.Proofs.Renaming.Scopes
import IntScript.Proofs.Renaming.Machine
import IntScript.Proofs.Renaming.Tables
import IntScript.Proofs.Renaming.Sources
import IntScript.Proofs.Renaming.Runs
import IntScript.Proofs.Sessions
import IntScript.Proofs.Pruning
import IntScript.Proofs.InPlace
import IntScript.Proofs.InPlace.Tiers
import IntScript.Proofs.InPlace.Simulation
import IntScript.Proofs.InPlace.Runs
import IntScript.Proofs.Machine.Termination
import IntScript.Proofs.Grammar.Readers
import IntScript.Proofs.Grammar.Foresight
import IntScript.Proofs.Grammar.CorrectPrefix
import IntScript.Proofs.Lexing.Partition
import IntScript.Proofs.Locations
import IntScript.Proofs.Grammar.Productions
import IntScript.Proofs.Printing.Parentheses
import IntScript.Proofs.Printing.Contents
import IntScript.Proofs.Printing.Division
import IntScript.Proofs.Printing.LeastParentheses
import IntScript.Proofs.Printing.Settling
import IntScript.Proofs.Printing.Stability
import IntScript.Proofs.Diagnostic.Lines
import IntScript.Proofs.Diagnostic.Underlines
import IntScript.Proofs.Grammar.Brackets
import IntScript.Proofs.Scope.Requests
import IntScript.Proofs.Scope.Lifetimes
import IntScript.Proofs.Scope.LexicalLookup
import IntScript.Proofs.Machine.Postorder
import IntScript.Proofs.Arithmetic
import IntScript.Proofs.Machine.Purity
import IntScript.Proofs.Lexing.Determinacy
import IntScript.Proofs.Lexing.Layouts
import IntScript.Proofs.Lexing.Refusals
import IntScript.Proofs.Lexing.Numbering
import IntScript.Proofs.Machine.Registry
import IntScript.Proofs.Diagnostic.Positions
import IntScript.Proofs.Grammar.Walking
import IntScript.Proofs.Diagnostic.Colors
import IntScript.Proofs.Command.Arguments
import IntScript.Proofs.Scope.Outward
import IntScript.Proofs.Machine.ParentLinks
import IntScript.Proofs.Grammar.Depth
import IntScript.Proofs.Grammar.Progress
