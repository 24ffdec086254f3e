import Parlance.Indent
import Parlance.Node
import Parlance.ScopeId
import Parlance.Token

/-! What the log can tell of a program: one constructor for each thing that reading, understanding and running
it reports, with the target, the level and the words of the report. -/
namespace Parlance

inductive Level where
  | error | warn | info | debug | trace
deriving DecidableEq, Repr

namespace Level

/-- The larger, the more is told. -/
def rank : Level → Nat
  | .error => 1
  | .warn => 2
  | .info => 3
  | .debug => 4
  | .trace => 5

def name : Level → String
  | .error => "ERROR"
  | .warn => "WARN"
  | .info => "INFO"
  | .debug => "DEBUG"
  | .trace => "TRACE"

end Level

/-- The part of the work that an event belongs to. -/
inductive Target where
  | lex | parse | eval
deriving DecidableEq, Repr

def Target.name : Target → String
  | .lex => "lex"
  | .parse => "parse"
  | .eval => "eval"

inductive Event where
  | unitFixed (span : Span) (unit : Indent)
  | levelChanged (span : Span) (before after : Nat)
  | tokenRead (token : Token)
  | sourceRead (name : String) (lines tokens : Nat)
  | expression (span : Span) (tokens : Nat)
  | statement (first : Token)
  | procedureNamed (span : Span) (name param : String)
  | programRead (statements : Nat)
  | builtinsBound (count : Nat)
  | programStarted (name : String) (statements : Nat)
  | evaluating (node : Node)
  | loopFinished (line iterations : Nat)
  | loopBroken (line iterations : Nat)
  | scopeCreated (scope parent : ScopeId)
  | scopeReleased (scope : ScopeId)
  | invoking (name : String) (scope : ScopeId)
  | promptEnded (chunks : Nat)
deriving Repr

namespace Event

def target : Event → Target
  | .unitFixed .. | .levelChanged .. | .tokenRead .. | .sourceRead .. => .lex
  | .expression .. | .statement .. | .procedureNamed .. | .programRead .. => .parse
  | _ => .eval

def level : Event → Level
  | .levelChanged .. | .tokenRead .. | .expression .. | .statement .. | .evaluating ..
  | .scopeCreated .. | .scopeReleased .. => .trace
  | .programStarted .. => .info
  | _ => .debug

def message : Event → String
  | .unitFixed span unit => s!"{span.describe}: shift unit is {unit.describe}"
  | .levelChanged span before after => s!"{span.describe}: indentation level {before} -> {after}"
  | .tokenRead token => s!"{token.span.describe}: {token.describe}"
  | .sourceRead name lines tokens => s!"lexed {lines} lines of {name} into {tokens} tokens"
  | .expression span tokens => s!"{span.describe}: expression of {tokens} tokens"
  | .statement first => s!"{first.span.describe}: statement starting with {first.describe}"
  | .procedureNamed span name param => s!"{span.describe}: procedure '{name}' of '{param}'"
  | .programRead statements => s!"parsed {statements} top-level statements"
  | .builtinsBound count => s!"registered {count} builtin procedures"
  | .programStarted name statements => s!"running {name}: {statements} statements"
  | .evaluating node => s!"line {node.line}: {node.label}"
  | .loopFinished line iterations => s!"line {line}: loop finished after {iterations} iterations"
  | .loopBroken line iterations => s!"line {line}: loop broken after {iterations} iterations"
  | .scopeCreated scope parent => s!"scope {scope.describe} created with parent {parent.describe}"
  | .scopeReleased scope => s!"scope {scope.describe} released"
  | .invoking name scope => s!"invoking procedure '{name}' in scope {scope.describe}"
  | .promptEnded chunks => s!"interactive session ended after {chunks} chunks"

end Event
end Parlance
