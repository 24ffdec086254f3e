import Mathlib.Logic.Relation
import Parlance.Prompt
import Parlance.Proofs.Machine.Stack

/-! The life of a session in the hands of a host, moment by moment: between two requests it is idle, and while one is
carried out it passes through the configurations of the evaluation. Running a program, executing a source and holding an
interactive session are all made of the moves defined here, so what holds at every moment holds inside all of them. -/
namespace Parlance

inductive Request where
  | run (program : List Node)
  /-- A single statement, as the interactive session evaluates it. -/
  | statement (node : Node)
  | invoke (procedure : Procedure) (arguments : List Value)
  | register (builtin : Builtin)

inductive Phase where
  | idle (session : Session)
  | busy (config : Config)

def Phase.session : Phase → Session
  | .idle session => session
  | .busy config => config.session

def Phase.stack : Phase → List Frame
  | .idle _ => []
  | .busy config => config.stack

def Phase.values : Phase → List Value
  | .idle _ => []
  | .busy config => config.values

structure Moment where
  /-- The values that the host has got from the session so far. -/
  held : List Value
  phase : Phase

namespace Moment

def arena (moment : Moment) : Arena :=
  moment.phase.session.arena

def start (streams : Streams) (filter : Filter) : Moment :=
  ⟨[], .idle (Session.start streams filter)⟩

/-- One move of the host, restricted to some requests, or one step of the evaluation. -/
inductive Next (permits : Request → Prop) : Moment → Moment → Prop
  /-- Something is written, read, or noted in the log. -/
  | talk (held : List Value) (session : Session) (streams : Streams) (log : Log) :
      Next permits ⟨held, .idle session⟩ ⟨held, .idle { session with streams, log }⟩
  | take {held : List Value} {session : Session} {scope : ScopeId} {name : String} {value : Value}
      (found : session.lookup scope name = some value) :
      Next permits ⟨held, .idle session⟩ ⟨value :: held, .idle session⟩
  | register {held : List Value} {session : Session} {builtin : Builtin} (allowed : permits (.register builtin)) :
      Next permits ⟨held, .idle session⟩ ⟨held, .idle (session.register builtin)⟩
  | run {held : List Value} {session : Session} {program : List Node} (allowed : permits (.run program)) :
      Next permits ⟨held, .idle session⟩
        ⟨held, .busy ⟨.block (session.load program).1 Arena.root, [], (session.load program).2⟩⟩
  | statement {held : List Value} {session : Session} {node : Node} (allowed : permits (.statement node)) :
      Next permits ⟨held, .idle session⟩
        ⟨held, .busy ⟨.eval (node.number session.sites).1 Arena.root, [],
          { session with sites := (node.number session.sites).2 }⟩⟩
  /-- The host can only pass on procedures that it has got from the session, or builtin ones. -/
  | invoke {held : List Value} {session : Session} {procedure : Procedure} {arguments : List Value}
      (allowed : permits (.invoke procedure arguments))
      (known : ∀ value ∈ .procedure procedure :: arguments, value ∈ held ∨ value.handle? = none) :
      Next permits ⟨held, .idle session⟩ ⟨held, .busy ⟨.invoke procedure arguments, [], session⟩⟩
  | step {held : List Value} {config next : Config} (stepped : config.step = .running next) :
      Next permits ⟨held, .busy config⟩ ⟨held, .busy next⟩
  | finish {held : List Value} {config : Config} {outcome : Outcome} {session : Session}
      (stepped : config.step = .finished outcome session) :
      Next permits ⟨held, .busy config⟩ ⟨Outcome.values outcome ++ held, .idle session⟩

def Later (permits : Request → Prop) : Moment → Moment → Prop :=
  Relation.ReflTransGen (Next permits)

def Reachable (permits : Request → Prop) (moment : Moment) : Prop :=
  ∃ streams filter, Later permits (start streams filter) moment

/-- What holds at the start and survives every move holds whenever the host looks. -/
theorem Reachable.invariant {permits : Request → Prop} {moment : Moment} (reached : moment.Reachable permits)
    {invariant : Moment → Prop} (initial : ∀ streams filter, invariant (start streams filter))
    (kept : ∀ now next, invariant now → Next permits now next → invariant next) : invariant moment := by
  obtain ⟨streams, filter, path⟩ := reached
  induction path with
  | refl => exact initial streams filter
  | tail _ move ih => exact kept _ _ ih move

theorem Reachable.later {permits : Request → Prop} {moment next : Moment} (reached : moment.Reachable permits)
    (path : Later permits moment next) : next.Reachable permits := by
  obtain ⟨streams, filter, before⟩ := reached
  exact ⟨streams, filter, before.trans path⟩

end Moment

/-! ### Evaluations as moves -/

section Evaluation

open Moment

variable {permits : Request → Prop}

theorem Config.run_later (held : List Value) (fuel : Nat) {config : Config} {outcome : Outcome} {session : Session}
    (ran : config.run fuel = some (outcome, session)) :
    Later permits ⟨held, .busy config⟩ ⟨Outcome.values outcome ++ held, .idle session⟩ := by
  induction fuel generalizing config with
  | zero => cases ran
  | succ fuel ih =>
    simp only [Config.run, Config.runUnder] at ran
    split at ran
    · rename_i next stepped
      exact .head (.step stepped) (ih ran)
    · rename_i stepped
      cases ran
      exact .single (.finish stepped)

namespace Session

theorem run_later (held : List Value) {session after : Session} {fuel : Nat} {program : List Node}
    {outcome : Outcome} (allowed : permits (.run program)) (ran : session.run fuel program = some (outcome, after)) :
    Later permits ⟨held, .idle session⟩ ⟨Outcome.values outcome ++ held, .idle after⟩ :=
  .head (.run allowed) (Config.run_later held fuel ran)

theorem eval_later (held : List Value) {session after : Session} {fuel : Nat} {node : Node} {outcome : Outcome}
    (allowed : permits (.statement node)) (ran : session.eval fuel node = some (outcome, after)) :
    Later permits ⟨held, .idle session⟩ ⟨Outcome.values outcome ++ held, .idle after⟩ :=
  .head (.statement allowed) (Config.run_later held fuel ran)

theorem noteAll_later (held : List Value) (session : Session) (events : List Event) :
    Later permits ⟨held, .idle session⟩ ⟨held, .idle (session.noteAll events)⟩ :=
  .single (.talk held session session.streams (session.log.noteAll events))

/-- A source that can be read is run; of one that cannot, only the log tells. -/
theorem execute_later (held : List Value) {session after : Session} {fuel : Nat} {source : Source}
    {result : Except ProgramError Value}
    (allowed : ∀ program, source.program.result = .ok program → permits (.run program))
    (ran : session.execute fuel source = some (result, after)) :
    ∃ more, Later permits ⟨held, .idle session⟩ ⟨more, .idle after⟩ := by
  have noted : Later permits ⟨held, .idle session⟩ ⟨held, .idle (session.noteAll source.program.events)⟩ :=
    noteAll_later held session source.program.events
  simp only [execute] at ran
  split at ran
  · cases ran
    exact ⟨held, noted⟩
  · rename_i program read
    obtain ⟨⟨outcome, final⟩, ended, rest⟩ := Option.bind_eq_some_iff.mp ran
    cases rest
    exact ⟨_, noted.trans (.head (.talk held _ _ _) (run_later held (allowed program read) ended))⟩

end Session
end Evaluation
end Parlance
