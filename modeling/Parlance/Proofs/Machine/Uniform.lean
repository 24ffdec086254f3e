import Parlance.Machine

/-! Evaluation is uniform in the stack: what waits at the bottom is neither looked at nor changed until its turn comes. So
a run over more frames is a run without them, followed by what the frames make of its outcome. -/
namespace Parlance

/-- How an outcome goes on to the frames that wait for it. -/
def Outcome.control : Outcome → Control
  | .ok value => .value value
  | .error escape => .escape escape

namespace Config

/-- The configuration with more frames under its stack. -/
def atop (config : Config) (lower : List Frame) : Config :=
  ⟨config.control, config.stack ++ lower, config.session⟩

variable {regime : Regime}

section Atop

variable (lower : List Frame)

theorem eval_atop (node : Node) (scope : ScopeId) (stack : List Frame) (session : Session) :
    (eval node scope stack session).atop lower = eval node scope (stack ++ lower) session := by
  cases node with
  | identifier name line =>
    simp only [eval]
    split <;> rfl
  | assignment target value line => cases target <;> rfl
  | call | literal | conditional | loop | breaks | definition | returns => rfl

theorem call_atop (place : Place) (callee : Value) (done : List Value) (rest : List Node) (scope : ScopeId)
    (stack : List Frame) (session : Session) :
    (call place callee done rest scope stack session).atop lower =
      call place callee done rest scope (stack ++ lower) session := by
  cases rest with
  | cons argument rest => rfl
  | nil => cases callee <;> rfl

theorem statements_atop (name : String) (rest : List Node) (scope : ScopeId) (stack : List Frame) (session : Session) :
    (statements regime name rest scope stack session).atop lower =
      statements regime name rest scope (stack ++ lower) session := by
  cases rest <;> rfl

theorem invoke_atop (procedure : Procedure) (arguments : List Value) (stack : List Frame) (session : Session) :
    (invoke regime procedure arguments stack session).atop lower =
      invoke regime procedure arguments (stack ++ lower) session := by
  cases procedure with
  | builtin b =>
    simp only [invoke]
    split
    · split <;> rfl
    · rfl
  | closure c =>
    simp only [invoke]
    split
    · exact statements_atop lower ..
    · rfl

theorem resume_atop (value : Value) (frame : Frame) (stack : List Frame) (session : Session) :
    (resume regime value frame stack session).atop lower = resume regime value frame (stack ++ lower) session := by
  cases frame with
  | next statements scope => cases statements <;> rfl
  | head | argument => exact call_atop lower ..
  | test | loopTest =>
    simp only [resume]
    split <;> rfl
  | body => exact statements_atop lower ..
  | assign | invoking | branch | loopBody | loopElse | give => rfl

theorem unwind_atop (escape : Escape) (frame : Frame) (stack : List Frame) (session : Session) :
    (unwind regime escape frame stack session).atop lower = unwind regime escape frame (stack ++ lower) session := by
  cases frame with
  | branch place taken => cases taken <;> rfl
  | loopBody | body => cases escape <;> rfl
  | next | head | argument | invoking | assign | test | loopTest | loopElse | give => rfl

theorem step_atop {config next : Config} (stepped : config.stepUnder regime = .running next) :
    (config.atop lower).stepUnder regime = .running (next.atop lower) := by
  obtain ⟨control, stack, session⟩ := config
  cases control with
  | eval node scope =>
    cases stepped
    rw [eval_atop]
    rfl
  | block statements scope => cases statements <;> cases stepped <;> rfl
  | invoke procedure arguments =>
    cases stepped
    rw [invoke_atop]
    rfl
  | value value =>
    cases stack with
    | nil => cases stepped
    | cons frame stack =>
      cases stepped
      rw [resume_atop]
      rfl
  | escape escape =>
    cases stack with
    | nil => cases stepped
    | cons frame stack =>
      cases stepped
      rw [unwind_atop]
      rfl

theorem finished_atop {config : Config} {outcome : Outcome} {session : Session}
    (stepped : config.stepUnder regime = .finished outcome session) :
    config.atop lower = ⟨outcome.control, lower, session⟩ := by
  obtain ⟨control, stack, session⟩ := config
  cases control with
  | eval | invoke => cases stepped
  | block statements scope => cases statements <;> cases stepped
  | value | escape =>
    cases stack with
    | nil =>
      cases stepped
      rfl
    | cons frame stack => cases stepped

/-- A run over more frames, cut where it comes to them; the last step above is the first one below. -/
theorem run_atop_split {fuel : Nat} {config : Config} {result : Outcome × Session}
    (ran : (config.atop lower).runUnder regime fuel = some result) :
    ∃ first outcome middle rest, first + rest = fuel + 1 ∧ config.runUnder regime first = some (outcome, middle) ∧
      (⟨outcome.control, lower, middle⟩ : Config).runUnder regime rest = some result := by
  induction fuel generalizing config with
  | zero => cases ran
  | succ fuel ih =>
    cases stepped : config.stepUnder regime with
    | running next =>
      rw [runUnder, step_atop lower stepped] at ran
      obtain ⟨first, outcome, middle, rest, count, above, below⟩ := ih ran
      exact ⟨first + 1, outcome, middle, rest, by omega, by rw [runUnder, stepped]; exact above, below⟩
    | finished outcome middle =>
      rw [finished_atop lower stepped] at ran
      exact ⟨1, outcome, middle, fuel + 1, by omega, by rw [runUnder, stepped], ran⟩

theorem run_atop {fuel : Nat} {config : Config} {result : Outcome × Session}
    (ran : (config.atop lower).runUnder regime fuel = some result) :
    ∃ first outcome middle rest, config.runUnder regime first = some (outcome, middle) ∧
      (⟨outcome.control, lower, middle⟩ : Config).runUnder regime rest = some result := by
  obtain ⟨first, outcome, middle, rest, -, above, below⟩ := run_atop_split lower ran
  exact ⟨first, outcome, middle, rest, above, below⟩

end Atop

theorem run_done {fuel : Nat} {outcome : Outcome} {session : Session} {result : Outcome × Session}
    (ran : (⟨outcome.control, [], session⟩ : Config).runUnder regime fuel = some result) :
    result = (outcome, session) := by
  cases fuel with
  | zero => cases ran
  | succ fuel => cases outcome <;> exact (Option.some.inj ran).symm

/-- What every step keeps holds of the configuration with which a run ends. -/
theorem run_invariant {invariant : Config → Prop}
    (kept : ∀ config next, invariant config → config.stepUnder regime = .running next → invariant next) {fuel : Nat}
    {config : Config} (initial : invariant config) {outcome : Outcome} {after : Session}
    (ran : config.runUnder regime fuel = some (outcome, after)) :
    ∃ last, invariant last ∧ last.stepUnder regime = .finished outcome after := by
  induction fuel generalizing config with
  | zero => cases ran
  | succ fuel ih =>
    cases stepped : config.stepUnder regime with
    | running next =>
      rw [runUnder, stepped] at ran
      exact ih (kept config next initial stepped) ran
    | finished result session =>
      rw [runUnder, stepped] at ran
      cases ran
      exact ⟨config, initial, stepped⟩

end Config
end Parlance
