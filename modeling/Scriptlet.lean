import Scriptlet.Text.Position
import Scriptlet.Text.Blank
import Scriptlet.Number.Binary
import Scriptlet.Number.Shortest
import Scriptlet.Number.Layout
import Scriptlet.Value.Basic
import Scriptlet.Value.Operator
import Scriptlet.Token.Kind
import Scriptlet.Token.Basic
import Scriptlet.Token.Lexeme
import Scriptlet.Token.Scan
import Scriptlet.Token.Lines
import Scriptlet.Program.Basic
import Scriptlet.Program.SExpr
import Scriptlet.Json
import Scriptlet.Program.Json
import Scriptlet.Grammar.Fault
import Scriptlet.Grammar.Stream
import Scriptlet.Grammar.Expression
import Scriptlet.Grammar.Statement
import Scriptlet.Grammar.Outline
import Scriptlet.Scope
import Scriptlet.Source.Path
import Scriptlet.Source.FileSystem
import Scriptlet.Source.FileTree
import Scriptlet.Diagnostic
import Scriptlet.Source.Include
import Scriptlet.Run.Fault
import Scriptlet.Run.Machine
import Scriptlet.Run.Evaluate
import Scriptlet.Session
import Scriptlet.CommandLine.Options
import Scriptlet.CommandLine.Response
import Scriptlet.Main
import Scriptlet.Proofs.Except
import Scriptlet.Proofs.Surface.Spelling
import Scriptlet.Proofs.Surface.Desugar
import Scriptlet.Proofs.Surface.Shape
import Scriptlet.Proofs.Token.WellFormed
import Scriptlet.Proofs.Text.Slice
import Scriptlet.Proofs.Token.Extent
import Scriptlet.Proofs.Token.Arrangement
import Scriptlet.Proofs.Token.Account
import Scriptlet.Proofs.Grammar.Reading
import Scriptlet.Proofs.Grammar.Ladder
import Scriptlet.Proofs.Grammar.ExpressionComplete
import Scriptlet.Proofs.Grammar.ExpressionSound
import Scriptlet.Proofs.Grammar.StatementComplete
import Scriptlet.Proofs.Grammar.StatementSound
import Scriptlet.Proofs.Grammar.Unambiguity
import Scriptlet.Proofs.Token.Spacing
import Scriptlet.Proofs.Token.Joined
import Scriptlet.Proofs.Surface.Renumber
import Scriptlet.Proofs.Grammar.Pointing
import Scriptlet.Proofs.Source.Parsed
import Scriptlet.Proofs.Run.Refinement
import Scriptlet.Proofs.Run.Correspondence
import Scriptlet.Proofs.Run.Padding
import Scriptlet.Proofs.Run.ForLoop
import Scriptlet.Proofs.Run.LoopControl
import Scriptlet.Proofs.Source.Walk
import Scriptlet.Proofs.Source.Pasting
import Scriptlet.Proofs.Source.Location
import Scriptlet.Proofs.Run.Discipline
import Scriptlet.Proofs.Run.Course
import Scriptlet.Proofs.Run.Scoping
import Scriptlet.Proofs.Session.Delivery
import Scriptlet.Proofs.Session.Steps
import Scriptlet.Proofs.Session.Isolation
import Scriptlet.Proofs.Run.Likeness
import Scriptlet.Proofs.Run.Lockstep
import Scriptlet.Proofs.Session.Twins
import Scriptlet.Proofs.Program.Induction
import Scriptlet.Proofs.Session.Annotations
import Scriptlet.Proofs.Session.Bindings
import Scriptlet.Proofs.Session.Renaming
import Scriptlet.Proofs.Number.Bits
import Scriptlet.Proofs.Number.Shortest
import Scriptlet.Proofs.Number.Layout
import Scriptlet.Proofs.Program.Dump
import Scriptlet.Proofs.Run.Nodes
import Scriptlet.Proofs.Run.Failing
import Scriptlet.Proofs.Run.Stages
import Scriptlet.Proofs.Run.Attribution
import Scriptlet.Proofs.Grammar.Lines
import Scriptlet.Proofs.Run.Meeting
import Scriptlet.Proofs.Run.Parentheses
import Scriptlet.Proofs.Session.Parentheses
import Scriptlet.Proofs.Number.Rounding
import Scriptlet.Proofs.Json.Text
import Scriptlet.Proofs.Json.Reader
import Scriptlet.Proofs.Program.RoundTrip
import Scriptlet.Proofs.Token.Failure
import Scriptlet.Proofs.Grammar.Rounds
import Scriptlet.Proofs.Grammar.ExpressionProgress
import Scriptlet.Proofs.Grammar.StatementProgress
import Scriptlet.Proofs.Grammar.Totality
import Scriptlet.Proofs.Grammar.Lookahead
import Scriptlet.Proofs.Grammar.FirstError
import Scriptlet.Proofs.Token.Strings
import Scriptlet.Proofs.Number.Magnitude
import Scriptlet.Proofs.Run.Halting
import Scriptlet.Proofs.Session.Termination
import Scriptlet.Proofs.Token.Listing
import Scriptlet.Proofs.Text.Encoding
import Scriptlet.Proofs.Token.LineByLine
import Scriptlet.Proofs.Scope.Layers
import Scriptlet.Proofs.Scope.History
import Scriptlet.Proofs.Value.Integers
