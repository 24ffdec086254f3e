import Parlance.Log.Event

/-! The log of a session: the events that its filter lets through, and between them the complaints that went to the
error stream, in the order in which they came. -/
namespace Parlance

/-- For each target, the highest rank of level that is told. Rank 0 tells nothing. -/
structure Filter where
  lex : Nat
  parse : Nat
  eval : Nat
deriving DecidableEq, Repr

namespace Filter

def silent : Filter :=
  ⟨0, 0, 0⟩

def rank (filter : Filter) : Target → Nat
  | .lex => filter.lex
  | .parse => filter.parse
  | .eval => filter.eval

def tells (filter : Filter) (event : Event) : Bool :=
  event.level.rank ≤ filter.rank event.target

end Filter

inductive Entry where
  | event (event : Event)
  | complaint (text : String)
deriving Repr

structure Log where
  filter : Filter
  /-- The newest entry first. -/
  entries : List Entry
deriving Repr

namespace Log

def start (filter : Filter) : Log :=
  ⟨filter, []⟩

def note (log : Log) (event : Event) : Log :=
  if log.filter.tells event then { log with entries := .event event :: log.entries } else log

def noteAll (log : Log) (events : List Event) : Log :=
  events.foldl note log

def complain (log : Log) (text : String) : Log :=
  { log with entries := .complaint text :: log.entries }

/-- The events told, the oldest first. -/
def events (log : Log) : List Event :=
  log.entries.reverse.filterMap fun
    | .event event => some event
    | .complaint _ => none

end Log
end Parlance
