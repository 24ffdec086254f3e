import Parlance.Arena
import Parlance.Arity
import Parlance.Builtin
import Parlance.Command
import Parlance.Command.Files
import Parlance.Command.Options
import Parlance.Escape
import Parlance.Indent
import Parlance.Log
import Parlance.Log.Directive
import Parlance.Log.Event
import Parlance.Machine
import Parlance.Main
import Parlance.Node
import Parlance.Node.Error
import Parlance.Node.Expression
import Parlance.Node.Inspect
import Parlance.Node.Parsed
import Parlance.Node.Statement
import Parlance.Number
import Parlance.Operator
import Parlance.Program
import Parlance.ProgramError
import Parlance.Prompt
import Parlance.Proofs.Arena.Census
import Parlance.Proofs.Arena.Chain
import Parlance.Proofs.Arena.Closed
import Parlance.Proofs.Arena.Lifetime
import Parlance.Proofs.Arena.Mirror
import Parlance.Proofs.Arena.Seats
import Parlance.Proofs.Arena.Tree
import Parlance.Proofs.Arithmetic
import Parlance.Proofs.Arithmetic.Chain
import Parlance.Proofs.BlankLines
import Parlance.Proofs.ByteSources
import Parlance.Proofs.Concatenation
import Parlance.Proofs.Conversation
import Parlance.Proofs.Dialogue
import Parlance.Proofs.EndOfInput
import Parlance.Proofs.ErrorTrail
import Parlance.Proofs.FirstSplit
import Parlance.Proofs.FrameLaw
import Parlance.Proofs.LineByLine
import Parlance.Proofs.LineFraming
import Parlance.Proofs.LoopRounds
import Parlance.Proofs.Machine.Abreast
import Parlance.Proofs.Machine.Answers
import Parlance.Proofs.Machine.Binding
import Parlance.Proofs.Machine.Course
import Parlance.Proofs.Machine.Discipline
import Parlance.Proofs.Machine.Effect
import Parlance.Proofs.Machine.Ends
import Parlance.Proofs.Machine.Mirror
import Parlance.Proofs.Machine.Orderly
import Parlance.Proofs.Machine.Regime
import Parlance.Proofs.Machine.Relined
import Parlance.Proofs.Machine.Sequence
import Parlance.Proofs.Machine.Signals
import Parlance.Proofs.Machine.Sound
import Parlance.Proofs.Machine.Stack
import Parlance.Proofs.Machine.Twins
import Parlance.Proofs.Machine.Uniform
import Parlance.Proofs.Moment
import Parlance.Proofs.Moment.Sound
import Parlance.Proofs.Naming
import Parlance.Proofs.Node.Calls
import Parlance.Proofs.Node.Ensures
import Parlance.Proofs.Node.Extension
import Parlance.Proofs.Node.Grammar
import Parlance.Proofs.Node.Heading
import Parlance.Proofs.Node.Layout
import Parlance.Proofs.Node.Meets
import Parlance.Proofs.Node.Names
import Parlance.Proofs.Node.Outline
import Parlance.Proofs.Node.Phrase
import Parlance.Proofs.Node.Print
import Parlance.Proofs.Node.Proper
import Parlance.Proofs.Node.Quiet
import Parlance.Proofs.Node.Relocation
import Parlance.Proofs.Node.Reprint
import Parlance.Proofs.Node.Sayable
import Parlance.Proofs.Node.Signals
import Parlance.Proofs.Node.Spell
import Parlance.Proofs.Node.Spends
import Parlance.Proofs.Node.Structure
import Parlance.Proofs.Node.Succeeds
import Parlance.Proofs.Node.Typeset
import Parlance.Proofs.Node.Utters
import Parlance.Proofs.Node.WellFormed
import Parlance.Proofs.Node.Written
import Parlance.Proofs.Node.Yields
import Parlance.Proofs.Noninterference
import Parlance.Proofs.Number
import Parlance.Proofs.Operators
import Parlance.Proofs.Prompt.Exchange
import Parlance.Proofs.Prompt.Settles
import Parlance.Proofs.Prompt.Transcript
import Parlance.Proofs.ReadBack
import Parlance.Proofs.Reclamation
import Parlance.Proofs.Renaming
import Parlance.Proofs.Repetition
import Parlance.Proofs.Row
import Parlance.Proofs.ScopeArena
import Parlance.Proofs.ScopeBalance
import Parlance.Proofs.ScopeTree
import Parlance.Proofs.Sentence
import Parlance.Proofs.SignalPlacement
import Parlance.Proofs.StatementByStatement
import Parlance.Proofs.Text.Bytes
import Parlance.Proofs.Text.Segments
import Parlance.Proofs.Text.Words
import Parlance.Proofs.Token.Canonical
import Parlance.Proofs.Token.Indentation
import Parlance.Proofs.Token.OneLine
import Parlance.Proofs.Token.Shape
import Parlance.Proofs.Token.Spelling
import Parlance.Proofs.Token.Stream
import Parlance.Proofs.Token.Tight
import Parlance.Proofs.Unreached
import Parlance.Proofs.WellFormedRuns
import Parlance.ScopeId
import Parlance.Sentence
import Parlance.Session
import Parlance.Source
import Parlance.Span
import Parlance.StreamError
import Parlance.Streams
import Parlance.Text.Blank
import Parlance.Text.Lines
import Parlance.Text.Numeral
import Parlance.Text.Quoted
import Parlance.Text.Split
import Parlance.Text.Unprinted
import Parlance.Text.Word
import Parlance.Token
import Parlance.Token.Error
import Parlance.Token.Layout
import Parlance.Traced
import Parlance.Value
import Parlance.Value.Inspect
import Parlance.Proofs.BlockOpeners
import Parlance.Proofs.Decimal
