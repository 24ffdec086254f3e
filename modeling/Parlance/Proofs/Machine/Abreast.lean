import Parlance.Proofs.Machine.Ends
import Parlance.Proofs.Machine.Image

/-! Two evaluations side by side, in sessions with the same scopes and with streams that nothing can tell apart. They take
the same steps and end alike: neither the log nor the number of sites handed out has a part in an evaluation. -/
namespace Parlance

variable {related : Streams → Streams → Prop}

structure Session.Abreast (related : Streams → Streams → Prop) (first second : Session) : Prop where
  arena : second.arena = first.arena
  streams : related first.streams second.streams

structure Config.Abreast (related : Streams → Streams → Prop) (first second : Config) : Prop where
  control : second.control = first.control
  stack : second.stack = first.stack
  session : first.session.Abreast related second.session

theorem Value.image_self (value : Value) : value.image (fun procedure => procedure) = value := by
  cases value <;> rfl

theorem imageAnswer_self (answer : Except Fault Value) : imageAnswer (fun procedure => procedure) answer = answer := by
  cases answer with
  | ok value => exact congrArg Except.ok value.image_self
  | error fault =>
    cases fault with
    | wrongType expected value =>
      exact congrArg (fun value => Except.error (Fault.wrongType expected value)) value.image_self
    | unknownName | badCall | badTarget | stream => rfl

/-- A builtin answers alike on streams that nothing can tell apart. -/
theorem Action.run_congruent (congruent : Streams.Congruent related) {first second : Streams}
    (alike : related first second) (action : Action) (arguments : List Value) :
    (action.run second arguments).1 = (action.run first arguments).1 ∧
      related (action.run first arguments).2 (action.run second arguments).2 := by
  have same : arguments.map (Value.image fun procedure => procedure) = arguments :=
    List.map_id'' Value.image_self arguments
  by_cases looks : action = .inspect
  · have written := writing_image (fun procedure => procedure)
      (congruent.write first second (String.join (arguments.map fun a => a.inspect ++ "\n")) alike)
      (arguments.headD .nothing)
    rw [imageAnswer_self, Value.image_self] at written
    exact looks ▸ written
  · have ran := run_image (fun _ => rfl) congruent alike looks arguments
    rwa [imageAnswer_self, same] at ran

namespace Session.Abreast

variable {first second : Session}

theorem note (abreast : first.Abreast related second) (event other : Event) :
    (first.note event).Abreast related (second.note other) :=
  ⟨abreast.arena, abreast.streams⟩

theorem define (abreast : first.Abreast related second) (scope : ScopeId) (name : String) (value : Value) :
    (first.define scope name value).Abreast related (second.define scope name value) :=
  ⟨congrArg (·.define scope name value) abreast.arena, abreast.streams⟩

theorem defineAll (abreast : first.Abreast related second) (scope : ScopeId) (bindings : List (String × Value)) :
    (first.defineAll scope bindings).Abreast related (second.defineAll scope bindings) := by
  unfold Session.defineAll
  induction bindings generalizing first second with
  | nil => exact abreast
  | cons entry rest ih => exact ih (abreast.define scope entry.1 entry.2)

theorem capture (abreast : first.Abreast related second) (scope : ScopeId) :
    (first.capture scope).Abreast related (second.capture scope) :=
  ⟨congrArg (·.capture scope) abreast.arena, abreast.streams⟩

theorem openScope (abreast : first.Abreast related second) (parent : ScopeId) :
    (second.openScope parent).1 = (first.openScope parent).1 ∧
      (first.openScope parent).2.Abreast related (second.openScope parent).2 := by
  simp only [Session.openScope, abreast.arena]
  exact ⟨trivial, rfl, abreast.streams⟩

theorem closeScope (abreast : first.Abreast related second) (scope : ScopeId) :
    (first.closeScope scope).Abreast related (second.closeScope scope) := by
  simp only [Session.closeScope, abreast.arena]
  split
  · exact ⟨rfl, abreast.streams⟩
  · exact abreast

theorem act (congruent : Streams.Congruent related) (abreast : first.Abreast related second) (action : Action)
    (arguments : List Value) :
    (second.act action arguments).1 = (first.act action arguments).1 ∧
      (first.act action arguments).2.Abreast related (second.act action arguments).2 := by
  obtain ⟨same, after⟩ := Action.run_congruent congruent abreast.streams action arguments
  exact ⟨same, abreast.arena, after⟩

end Session.Abreast

namespace Config.Abreast

variable {session twin : Session}

theorem eval (abreast : session.Abreast related twin) (node : Node) (scope : ScopeId) (stack : List Frame) :
    (Config.eval node scope stack session).Abreast related (Config.eval node scope stack twin) := by
  cases node with
  | identifier name line =>
    have same : twin.lookup scope name = session.lookup scope name := congrArg (·.lookup scope name) abreast.arena
    simp only [Config.eval, same]
    split <;> exact ⟨rfl, rfl, abreast⟩
  | assignment target value line => cases target <;> exact ⟨rfl, rfl, abreast⟩
  | definition name params body site line => exact ⟨rfl, rfl, (abreast.capture scope).define ..⟩
  | call | literal | conditional | loop | breaks | returns => exact ⟨rfl, rfl, abreast⟩

theorem call (abreast : session.Abreast related twin) (place : Place) (callee : Value) (done : List Value)
    (rest : List Node) (scope : ScopeId) (stack : List Frame) :
    (Config.call place callee done rest scope stack session).Abreast related
      (Config.call place callee done rest scope stack twin) := by
  cases rest with
  | cons => exact ⟨rfl, rfl, abreast⟩
  | nil => cases callee <;> exact ⟨rfl, rfl, abreast⟩

theorem statements (abreast : session.Abreast related twin) (name : String) (rest : List Node) (scope : ScopeId)
    (stack : List Frame) :
    (Config.statements .usual name rest scope stack session).Abreast related
      (Config.statements .usual name rest scope stack twin) := by
  cases rest with
  | cons => exact ⟨rfl, rfl, abreast⟩
  | nil => exact ⟨rfl, rfl, abreast.closeScope scope⟩

theorem invoke (congruent : Streams.Congruent related) (abreast : session.Abreast related twin) (procedure : Procedure)
    (arguments : List Value) (stack : List Frame) :
    (Config.invoke .usual procedure arguments stack session).Abreast related
      (Config.invoke .usual procedure arguments stack twin) := by
  cases procedure with
  | builtin b =>
    simp only [Config.invoke]
    split
    · obtain ⟨same, after⟩ := abreast.act congruent b.action arguments
      simp only [Regime.usual]
      generalize session.act b.action arguments = here at same after ⊢
      generalize twin.act b.action arguments = there at same after ⊢
      obtain ⟨_, session⟩ := here
      obtain ⟨answer, twin⟩ := there
      obtain rfl := same
      cases answer <;> exact ⟨rfl, rfl, after⟩
    · exact ⟨rfl, rfl, abreast⟩
  | closure c =>
    simp only [Config.invoke]
    split
    · obtain ⟨same, opened⟩ := abreast.openScope c.scope
      rw [same]
      exact statements ((opened.defineAll _ _).note _ _) c.name c.body _ stack
    · exact ⟨rfl, rfl, abreast⟩

theorem resume (abreast : session.Abreast related twin) (value : Value) (frame : Frame) (stack : List Frame) :
    (Config.resume .usual value frame stack session).Abreast related
      (Config.resume .usual value frame stack twin) := by
  cases frame with
  | next rest scope => cases rest <;> exact ⟨rfl, rfl, abreast⟩
  | head | argument => exact call abreast ..
  | assign place name scope => exact ⟨rfl, rfl, abreast.define scope name value⟩
  | test | loopTest =>
    simp only [Config.resume]
    split
    · exact ⟨rfl, rfl, abreast⟩
    · exact ⟨rfl, rfl, ⟨abreast.arena, abreast.streams⟩⟩
  | body name place rest scope => exact statements abreast ..
  | invoking | branch | loopBody | loopElse | give => exact ⟨rfl, rfl, abreast⟩

theorem unwind (abreast : session.Abreast related twin) (escape : Escape) (frame : Frame) (stack : List Frame) :
    (Config.unwind .usual escape frame stack session).Abreast related
      (Config.unwind .usual escape frame stack twin) := by
  cases frame with
  | branch place taken => cases taken <;> exact ⟨rfl, rfl, abreast⟩
  | loopBody loop iterations scope => cases escape <;> exact ⟨rfl, rfl, abreast.arena, abreast.streams⟩
  | body name place rest scope => cases escape <;> exact ⟨rfl, rfl, abreast.closeScope scope⟩
  | next | head | argument | invoking | assign | test | loopTest | loopElse | give => exact ⟨rfl, rfl, abreast⟩

variable {first second : Config}

/-- Both go on, or both end with the same outcome. -/
theorem step (congruent : Streams.Congruent related) (abreast : first.Abreast related second) :
    (∃ next twin, first.step = .running next ∧ second.step = .running twin ∧ next.Abreast related twin) ∨
    ∃ outcome after last, first.step = .finished outcome after ∧ second.step = .finished outcome last ∧
      after.Abreast related last := by
  obtain ⟨_, _, session⟩ := first
  obtain ⟨control, stack, twin⟩ := second
  obtain ⟨rfl, rfl, abreast⟩ := abreast
  cases control with
  | eval node scope => exact .inl ⟨_, _, rfl, rfl, eval (abreast.note _ _) node scope stack⟩
  | block rest scope => cases rest <;> exact .inl ⟨_, _, rfl, rfl, rfl, rfl, abreast⟩
  | invoke procedure arguments => exact .inl ⟨_, _, rfl, rfl, invoke congruent abreast procedure arguments stack⟩
  | value value =>
    cases stack with
    | nil => exact .inr ⟨_, _, _, rfl, rfl, abreast⟩
    | cons frame stack => exact .inl ⟨_, _, rfl, rfl, resume abreast value frame stack⟩
  | escape escape =>
    cases stack with
    | nil => exact .inr ⟨_, _, _, rfl, rfl, abreast⟩
    | cons frame stack => exact .inl ⟨_, _, rfl, rfl, unwind abreast escape frame stack⟩

theorem run (congruent : Streams.Congruent related) (abreast : first.Abreast related second) {fuel : Nat} :
    first.run fuel = none ∧ second.run fuel = none ∨
    ∃ outcome after last, first.run fuel = some (outcome, after) ∧ second.run fuel = some (outcome, last) ∧
      after.Abreast related last := by
  induction fuel generalizing first second with
  | zero => exact .inl ⟨rfl, rfl⟩
  | succ fuel ih =>
    rcases abreast.step congruent with ⟨next, twin, here, there, following⟩ | ⟨outcome, after, last, here, there, ended⟩
    · have goes : first.stepUnder .usual = .running next := here
      have follows : second.stepUnder .usual = .running twin := there
      rw [Config.run, Config.run, runUnder, runUnder, goes, follows]
      exact ih following
    · have ends : first.stepUnder .usual = .finished outcome after := here
      have follows : second.stepUnder .usual = .finished outcome last := there
      rw [Config.run, Config.run, runUnder, runUnder, ends, follows]
      exact .inr ⟨outcome, after, last, rfl, rfl, ended⟩

theorem ends (congruent : Streams.Congruent related) (abreast : first.Abreast related second) {outcome : Outcome}
    {after : Session} (ends : first.Ends outcome after) :
    ∃ last, second.Ends outcome last ∧ after.Abreast related last := by
  obtain ⟨fuel, ran⟩ := ends
  rcases abreast.run congruent with ⟨none, _⟩ | ⟨_, _, last, here, there, ended⟩
  · cases none.symm.trans ran
  · cases here.symm.trans ran
    exact ⟨last, ⟨fuel, there⟩, ended⟩

theorem ended (congruent : Streams.Congruent related) (abreast : first.Abreast related second) {outcome : Outcome}
    {last : Session} (ends : second.Ends outcome last) :
    ∃ after, first.Ends outcome after ∧ after.Abreast related last := by
  obtain ⟨fuel, ran⟩ := ends
  rcases abreast.run congruent with ⟨_, none⟩ | ⟨_, after, _, here, there, ended⟩
  · cases none.symm.trans ran
  · cases there.symm.trans ran
    exact ⟨after, ⟨fuel, here⟩, ended⟩

end Config.Abreast
end Parlance
