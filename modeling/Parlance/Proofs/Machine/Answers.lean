import Parlance.Proofs.Machine.Course

/-! Where the lines of the input go. Only a question takes one, and it has the line for its value; so what an evaluation
takes from the input is what its questions are answered with, in their order. -/
namespace Parlance

/-- These lines are what is left of the input. -/
def Streams.Offers (streams : Streams) (lines : List String) : Prop :=
  streams.input = lines.map some

namespace Action

/-- The line that a question was answered with. -/
def heard? (action : Action) (result : Except Fault Value) : Option String :=
  match action, result with
  | .ask, .ok (.text line) => some line
  | _, _ => none

variable {streams : Streams} {lines : List String}

theorem offers_answer (offers : streams.Offers lines) :
    ∃ rest, (answer streams).2.Offers rest ∧ lines = (heard? .ask (answer streams).1).toList ++ rest := by
  obtain ⟨output, error, input⟩ := streams
  have given : input = lines.map some := offers
  subst given
  cases lines with
  | nil => exact ⟨[], rfl, rfl⟩
  | cons line rest => exact ⟨rest, rfl, rfl⟩

/-- A builtin takes the line that it hears, and no other. -/
theorem offers_run (action : Action) (arguments : List Value) (offers : streams.Offers lines) :
    ∃ rest, (action.run streams arguments).2.Offers rest ∧
      lines = (action.heard? (action.run streams arguments).1).toList ++ rest := by
  cases action with
  | display | inspect => exact ⟨lines, offers, rfl⟩
  | ask =>
    cases arguments with
    | nil => exact offers_answer offers
    | cons prompt _ =>
      have still : (writing streams prompt.describe .nothing).2.Offers lines := offers
      simp only [run]
      split
      · rename_i wrote
        rw [wrote] at still
        exact offers_answer still
      · rename_i wrote
        rw [wrote] at still
        exact ⟨lines, still, rfl⟩
  | number =>
    simp only [run]
    split <;> exact ⟨lines, offers, rfl⟩
  | operate operator =>
    simp only [run]
    split <;> exact ⟨lines, offers, rfl⟩

end Action

namespace Session

theorem streams_closeScope (session : Session) (scope : ScopeId) : (session.closeScope scope).streams = session.streams := by
  unfold closeScope
  split <;> rfl

theorem streams_defineAll (session : Session) (scope : ScopeId) (bindings : List (String × Value)) :
    (session.defineAll scope bindings).streams = session.streams := by
  unfold defineAll
  induction bindings generalizing session with
  | nil => rfl
  | cons entry rest ih => exact ih (session.define scope entry.1 entry.2)

end Session

namespace Config

/-- The line that a question is answered with by the next step. -/
def answer? (config : Config) : Option String :=
  match config.control with
  | .invoke (.builtin b) arguments =>
    if b.arity.allows arguments.length then b.action.heard? (b.action.run config.session.streams arguments).1 else none
  | _ => none

theorem streams_eval (node : Node) (scope : ScopeId) (stack : List Frame) (session : Session) :
    (Config.eval node scope stack session).session.streams = session.streams := by
  cases node with
  | identifier name line =>
    simp only [Config.eval]
    split <;> rfl
  | assignment target value line => cases target <;> rfl
  | definition | call | literal | conditional | loop | breaks | returns => rfl

theorem streams_call (place : Place) (callee : Value) (done : List Value) (rest : List Node) (scope : ScopeId)
    (stack : List Frame) (session : Session) :
    (Config.call place callee done rest scope stack session).session.streams = session.streams := by
  cases rest with
  | cons => rfl
  | nil => cases callee <;> rfl

theorem streams_statements (name : String) (rest : List Node) (scope : ScopeId) (stack : List Frame) (session : Session) :
    (Config.statements .usual name rest scope stack session).session.streams = session.streams := by
  cases rest with
  | cons => rfl
  | nil => exact session.streams_closeScope scope

theorem streams_enter (closure : Closure) (arguments : List Value) (stack : List Frame) (session : Session) :
    (Config.invoke .usual (.closure closure) arguments stack session).session.streams = session.streams := by
  simp only [Config.invoke]
  split
  · rw [streams_statements]
    exact Session.streams_defineAll ..
  · rfl

theorem streams_invoke {b : Builtin} {arguments : List Value} (allowed : b.arity.allows arguments.length = true)
    (stack : List Frame) (session : Session) :
    (Config.invoke .usual (.builtin b) arguments stack session).session.streams =
      (b.action.run session.streams arguments).2 := by
  simp only [Config.invoke, if_pos allowed]
  split
  · rename_i acted
    exact congrArg (·.2.streams) acted.symm
  · rename_i acted
    exact congrArg (·.2.streams) acted.symm

theorem streams_resume (value : Value) (frame : Frame) (stack : List Frame) (session : Session) :
    (Config.resume .usual value frame stack session).session.streams = session.streams := by
  cases frame with
  | next statements scope => cases statements <;> rfl
  | head place arguments scope => exact streams_call ..
  | argument place callee done rest scope => exact streams_call ..
  | test place thenBlock elseBlock scope =>
    simp only [Config.resume]
    split <;> rfl
  | loopTest loop iterations scope =>
    simp only [Config.resume]
    split <;> rfl
  | body name place rest scope => exact streams_statements ..
  | assign | invoking | branch | loopBody | loopElse | give => rfl

theorem streams_unwind (escape : Escape) (frame : Frame) (stack : List Frame) (session : Session) :
    (Config.unwind .usual escape frame stack session).session.streams = session.streams := by
  cases frame with
  | branch place taken => cases taken <;> rfl
  | loopBody loop iterations scope => cases escape <;> rfl
  | body name place rest scope => cases escape <;> exact session.streams_closeScope scope
  | next | head | argument | invoking | assign | test | loopTest | loopElse | give => rfl

variable {config next : Config} {lines : List String}

/-- Only a builtin does anything to the streams. -/
theorem streams_step (stepped : config.step = .running next) :
    (next.session.streams = config.session.streams ∧ config.answer? = none) ∨
    ∃ b arguments, config.control = .invoke (.builtin b) arguments ∧ b.arity.allows arguments.length = true ∧
      next.session.streams = (b.action.run config.session.streams arguments).2 := by
  obtain ⟨control, stack, session⟩ := config
  cases control with
  | eval node scope =>
    cases stepped
    exact .inl ⟨streams_eval .., rfl⟩
  | block statements scope => cases statements <;> cases stepped <;> exact .inl ⟨rfl, rfl⟩
  | invoke procedure arguments =>
    cases stepped
    cases procedure with
    | closure c => exact .inl ⟨streams_enter .., rfl⟩
    | builtin b =>
      by_cases allowed : b.arity.allows arguments.length = true
      · exact .inr ⟨b, arguments, rfl, allowed, streams_invoke allowed stack session⟩
      · refine .inl ⟨?_, ?_⟩
        · rw [Config.invoke, if_neg allowed]
          rfl
        · exact if_neg allowed
  | value value =>
    cases stack with
    | nil => cases stepped
    | cons frame stack =>
      cases stepped
      exact .inl ⟨streams_resume .., rfl⟩
  | escape escape =>
    cases stack with
    | nil => cases stepped
    | cons frame stack =>
      cases stepped
      exact .inl ⟨streams_unwind .., rfl⟩

/-- A step takes the line that a question is answered with, if there is one, and no other. -/
theorem offers_step (stepped : config.step = .running next) (offers : config.session.streams.Offers lines) :
    ∃ rest, next.session.streams.Offers rest ∧ lines = config.answer?.toList ++ rest := by
  rcases streams_step stepped with ⟨same, quiet⟩ | ⟨b, arguments, given, allowed, ran⟩
  · rw [quiet, same]
    exact ⟨lines, offers, rfl⟩
  · rw [answer?, given, ran]
    dsimp only
    rw [if_pos allowed]
    exact Action.offers_run b.action arguments offers

theorem answer?_finished {outcome : Outcome} {session : Session} (stepped : config.step = .finished outcome session) :
    config.answer? = none := by
  obtain ⟨control, stack, session⟩ := config
  cases control with
  | invoke => cases stepped
  | eval | block | value | escape => rfl

/-- An evaluation takes the lines that its questions are answered with, in their order. -/
theorem offers_run {fuel : Nat} {outcome : Outcome} {after : Session} (ran : config.run fuel = some (outcome, after))
    (offers : config.session.streams.Offers lines) :
    ∃ rest, after.streams.Offers rest ∧ lines = (config.course fuel).filterMap answer? ++ rest := by
  induction fuel generalizing config lines with
  | zero => cases ran
  | succ fuel ih =>
    cases stepped : config.step with
    | running next =>
      have onward : next.run fuel = some (outcome, after) := by
        rwa [run, runUnder, show config.stepUnder .usual = .running next from stepped] at ran
      obtain ⟨later, still, taken⟩ := offers_step stepped offers
      obtain ⟨rest, last, heard⟩ := ih onward still
      refine ⟨rest, last, ?_⟩
      rw [taken, heard, course_running fuel stepped]
      cases answered : config.answer? <;> simp [answered]
    | finished result session =>
      rw [run, runUnder, show config.stepUnder .usual = .finished result session from stepped] at ran
      cases ran
      obtain ⟨_, same, _⟩ := step_finished stepped
      rw [course, stepped]
      exact ⟨lines, same ▸ offers, by simp [answer?_finished stepped]⟩

end Config
end Parlance
