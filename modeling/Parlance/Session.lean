import Parlance.Arena
import Parlance.Builtin
import Parlance.Log

/-! A session is all that lasts from one program to the next: the scopes, the streams, the log, and how many
definition sites have been handed out. -/
namespace Parlance

structure Session where
  arena : Arena
  streams : Streams
  log : Log
  sites : Nat

namespace Session

def note (session : Session) (event : Event) : Session :=
  { session with log := session.log.note event }

def noteAll (session : Session) (events : List Event) : Session :=
  { session with log := session.log.noteAll events }

def define (session : Session) (scope : ScopeId) (name : String) (value : Value) : Session :=
  { session with arena := session.arena.define scope name value }

def defineAll (session : Session) (scope : ScopeId) (bindings : List (String × Value)) : Session :=
  bindings.foldl (fun session (name, value) => session.define scope name value) session

/-- Binds a builtin procedure for every program of the session. -/
def register (session : Session) (builtin : Builtin) : Session :=
  session.define Arena.root builtin.name (.procedure (.builtin builtin))

/-- A session with nothing but the root scope, and nothing bound in it. -/
def bare (streams : Streams) (filter : Filter) : Session :=
  ⟨.start, streams, .start filter, 0⟩

def start (streams : Streams) (filter : Filter) : Session :=
  (Builtin.table.foldl register (bare streams filter)).note (.builtinsBound Builtin.table.length)

def lookup (session : Session) (scope : ScopeId) (name : String) : Option Value :=
  session.arena.lookup scope name

def capture (session : Session) (scope : ScopeId) : Session :=
  { session with arena := session.arena.capture scope }

def openScope (session : Session) (parent : ScopeId) : ScopeId × Session :=
  match session with
  | ⟨arena, streams, log, sites⟩ =>
    let (scope, arena) := arena.child parent
    (scope, ⟨arena, streams, log.note (.scopeCreated scope parent), sites⟩)

def closeScope (session : Session) (scope : ScopeId) : Session :=
  if session.arena.isReleasable scope then
    { session with arena := session.arena.release scope }.note (.scopeReleased scope)
  else session

/-- Lets a builtin act on the session's streams. -/
def act (session : Session) (action : Action) (arguments : List Value) : Except Fault Value × Session :=
  match session with
  | ⟨arena, streams, log, sites⟩ =>
    let (result, streams) := action.run streams arguments
    (result, ⟨arena, streams, log, sites⟩)

/-- Numbers the definitions of a program with sites that no earlier program of the session has. -/
def load (session : Session) (program : List Node) : List Node × Session :=
  let (program, sites) := Node.numberAll session.sites program
  (program, { session with sites })

end Session
end Parlance
