import Parlance.Proofs.Noninterference
import Parlance.Proofs.Reclamation

/-! Procedures have no state of their own. An invocation leaves every scope that it found as it was, so a second one with
the same arguments starts from the same bindings; put the streams back, and it takes the same course. What it opens for
itself gets other handles, and that is all that differs. -/
namespace Parlance

open Arena

/-- Invokes a procedure while the regime holds. -/
def Session.invokeUnder (regime : Regime) (session : Session) (fuel : Nat) (procedure : Procedure)
    (arguments : List Value) : Option (Outcome × Session) :=
  Config.runUnder regime fuel ⟨.invoke procedure arguments, [], session⟩

/-- The session as it is, but with other streams. -/
def Session.withStreams (session : Session) (streams : Streams) : Session :=
  { session with streams }

/-! ### The number of definition sites -/

namespace Config

variable {regime : Regime}

theorem sites_eval (node : Node) (scope : ScopeId) (stack : List Frame) (session : Session) :
    (eval node scope stack session).session.sites = session.sites := by
  cases node with
  | identifier name line =>
    simp only [eval]
    split <;> rfl
  | assignment target value line => cases target <;> rfl
  | call | literal | conditional | loop | breaks | definition | returns => rfl

theorem sites_call (place : Place) (callee : Value) (done : List Value) (rest : List Node) (scope : ScopeId)
    (stack : List Frame) (session : Session) :
    (call place callee done rest scope stack session).session.sites = session.sites := by
  cases rest with
  | cons argument rest => rfl
  | nil => cases callee <;> rfl

theorem sites_statements (tame : regime.Tame) (name : String) (rest : List Node) (scope : ScopeId) (stack : List Frame)
    (session : Session) : (statements regime name rest scope stack session).session.sites = session.sites := by
  cases rest with
  | nil => exact (tame.close session scope).2
  | cons statement rest => rfl

theorem sites_invoke (tame : regime.Tame) (procedure : Procedure) (arguments : List Value) (stack : List Frame)
    (session : Session) : (invoke regime procedure arguments stack session).session.sites = session.sites := by
  cases procedure with
  | builtin b =>
    have acted := (tame.act session b.action arguments).2
    simp only [invoke]
    generalize regime.act session b.action arguments = answer at acted
    obtain ⟨_ | _, after⟩ := answer
    all_goals
      split
      · exact acted
      · rfl
  | closure c =>
    simp only [invoke]
    split
    · rw [sites_statements tame, Session.defineAll_eq]
      rfl
    · rfl

theorem sites_resume (tame : regime.Tame) (value : Value) (frame : Frame) (stack : List Frame) (session : Session) :
    (resume regime value frame stack session).session.sites = session.sites := by
  cases frame with
  | next statements scope => cases statements <;> rfl
  | head | argument => exact sites_call ..
  | test | loopTest =>
    simp only [resume]
    split <;> rfl
  | body => exact sites_statements tame ..
  | assign | invoking | branch | loopBody | loopElse | give => rfl

theorem sites_unwind (tame : regime.Tame) (escape : Escape) (frame : Frame) (stack : List Frame) (session : Session) :
    (unwind regime escape frame stack session).session.sites = session.sites := by
  cases frame with
  | branch place taken => cases taken <;> rfl
  | loopBody => cases escape <;> rfl
  | body name place rest scope => cases escape <;> exact (tame.close session scope).2
  | next | head | argument | invoking | assign | test | loopTest | loopElse | give => rfl

/-- Sites are handed out when a program is loaded, and never while it runs. -/
theorem sites_step (tame : regime.Tame) {config next : Config} (stepped : config.stepUnder regime = .running next) :
    next.session.sites = config.session.sites := by
  obtain ⟨control, stack, session⟩ := config
  cases control with
  | eval node scope =>
    cases stepped
    exact sites_eval ..
  | block statements scope => cases statements <;> cases stepped <;> rfl
  | invoke procedure arguments =>
    cases stepped
    exact sites_invoke tame ..
  | value value =>
    cases stack with
    | nil => cases stepped
    | cons frame stack =>
      cases stepped
      exact sites_resume tame ..
  | escape escape =>
    cases stack with
    | nil => cases stepped
    | cons frame stack =>
      cases stepped
      exact sites_unwind tame ..

end Config

/-! ### Two invocations, one after the other -/

/-- Scopes that are unchanged mirror themselves. -/
theorem Arena.Mirrors.of_unchanged {before after : Arena} (tidy : after.Tidy)
    (unchanged : ∀ id, before.Live id → before.Unchanged after id) : Mirrors (.refl _) ∅ before after where
  rooted := rfl
  tidy := tidy
  live id home := (unchanged id home.1).1
  scope id home := by
    obtain ⟨scope, found⟩ := home.1.found
    show after.get? id = _
    rw [(unchanged id home.1).2, found]
    exact congrArg some (Scope.rename_id scope).symm

theorem Control.rename_invoke_refl (procedure : Procedure) (arguments : List Value) :
    (Control.invoke procedure arguments).rename (Equiv.refl ScopeId) = .invoke procedure arguments := by
  have head : procedure.rename (Equiv.refl ScopeId) = procedure :=
    Value.procedure.inj (Value.rename_id (.procedure procedure))
  have rest : arguments.map (Value.rename (Equiv.refl ScopeId)) = arguments := List.map_id'' Value.rename_id arguments
  rw [Control.rename, head, rest]

namespace Config

variable {before : Arena} {regime other : Regime} {related : Streams → Streams → Prop} {move : Equiv.Perm ScopeId}

theorem sound_invoke {session : Session} (tidy : session.arena.Tidy) (closed : session.arena.Closed ∅)
    {procedure : Procedure} {arguments : List Value}
    (safe : ∀ value ∈ Value.procedure procedure :: arguments, session.arena.Safe ∅ value) :
    Config.Sound ∅ none ⟨.invoke procedure arguments, [], session⟩ := by
  have framed := framed_invoke tidy procedure arguments
  refine ⟨⟨framed.seats, closed, fun _ _ outside => outside⟩, ?_, framed.placed⟩
  intro value member
  exact safe value (by simpa [Config.values] using member)

/-- While an invocation is at work the renaming keeps its place on all scopes that the invocation found, for they stay
alive to the end. -/
theorem Framed.mirrors_run (matched : regime.Matches related other) {fuel : Nat} {config twin : Config}
    (framed : config.Framed before none True) (sound : config.Sound ∅ none) (mirrors : config.Mirrors related move ∅ twin)
    {outcome : Outcome} {after : Session} (ran : config.runUnder regime fuel = some (outcome, after)) :
    ∃ again, ∃ next : Equiv.Perm ScopeId, twin.runUnder other fuel = some (outcome.rename next, again) ∧
      after.Mirrors related next ∅ again ∧ ∀ id, before.Live id → next id = move id := by
  induction fuel generalizing config twin move with
  | zero => cases ran
  | succ fuel ih =>
    simp only [runUnder] at ran ⊢
    rcases mirrors.step matched sound with
      ⟨middle, twinMiddle, next, goes, twinGoes, agrees, mirrored⟩ | ⟨result, ends, twinEnds⟩
    · rw [goes] at ran
      rw [twinGoes]
      obtain ⟨again, final, twinRan, mirroredAfter, kept⟩ :=
        ih (framed.step matched.proper goes) (sound.step matched.proper goes) mirrored ran
      refine ⟨again, final, twinRan, mirroredAfter, ?_⟩
      intro id live
      have here : config.session.arena.Live id := (framed.unchanged id live fun _ => trivial).1
      rw [kept id live, agrees id ⟨here, fun outside => outside⟩]
    · rw [ends] at ran
      rw [twinEnds]
      cases ran
      exact ⟨_, move, rfl, mirrors.session, fun _ _ => rfl⟩

end Config

namespace Session

variable {regime : Regime} {related : Streams → Streams → Prop} {session after : Session} {procedure : Procedure}
  {arguments : List Value} {fuel : Nat} {outcome : Outcome}

/-- After an invocation, with the streams put back, the session mirrors the one before. -/
theorem mirrors_after_invoke (proper : regime.Proper) (tame : regime.Tame) (tidy : session.arena.Tidy)
    (same : related session.streams session.streams)
    (ran : session.invokeUnder regime fuel procedure arguments = some (outcome, after)) :
    session.Mirrors related (.refl _) ∅ (after.withStreams session.streams) := by
  have ended : ∃ last : Config, (last.Framed session.arena none True ∧ last.session.sites = session.sites) ∧
      last.stepUnder regime = .finished outcome after := by
    refine Config.run_invariant ?_ ⟨Config.framed_invoke tidy procedure arguments, rfl⟩ ran
    intro config next kept stepped
    exact ⟨kept.1.step proper stepped, (Config.sites_step tame stepped).trans kept.2⟩
  obtain ⟨last, kept, finished⟩ := ended
  obtain ⟨_, rfl, _⟩ := step_finished finished
  refine ⟨.of_unchanged kept.1.seats.tidy ?_, same, kept.2⟩
  exact fun id live => kept.1.unchanged id live fun _ => trivial

/-- If the procedure comes to an end, then so does a second invocation after the streams have been put back, with the same
outcome, up to a renaming of scopes that leaves those in place which were alive before, and the same effect on the streams. -/
def Repeats (related : Streams → Streams → Prop) (regime : Regime) (session : Session) (procedure : Procedure)
    (arguments : List Value) : Prop :=
  ∀ fuel outcome after, session.invokeUnder regime fuel procedure arguments = some (outcome, after) →
    ∃ again, ∃ move : Equiv.Perm ScopeId,
      (after.withStreams session.streams).invokeUnder regime fuel procedure arguments =
        some (outcome.rename move, again) ∧
      (∀ escape, outcome = .error escape → (escape.rename move).message = escape.message) ∧
      related after.streams again.streams ∧ ∀ id, session.arena.Live id → move id = id

theorem repeats (matched : regime.Matches related regime) (tidy : session.arena.Tidy) (closed : session.arena.Closed ∅)
    (same : related session.streams session.streams)
    (safe : ∀ value ∈ Value.procedure procedure :: arguments, session.arena.Safe ∅ value) :
    session.Repeats related regime procedure arguments := by
  intro fuel outcome after ran
  have mirrors : Config.Mirrors related (.refl _) ∅ ⟨.invoke procedure arguments, [], session⟩
      ⟨.invoke procedure arguments, [], after.withStreams session.streams⟩ :=
    ⟨mirrors_after_invoke matched.proper matched.tame tidy same ran,
      (Control.rename_invoke_refl procedure arguments).symm, rfl⟩
  obtain ⟨again, move, reran, mirrored, kept⟩ := (Config.framed_invoke tidy procedure arguments).mirrors_run matched
    (Config.sound_invoke tidy closed safe) mirrors ran
  exact ⟨again, move, reran, fun escape _ => escape.message_rename, mirrored.streams, kept⟩

end Session

/-! ### The usual regime matches itself -/

namespace Regime

theorem masked_repeats : usual.masked.Matches Eq usual.masked where
  proper := usual_proper.masked
  tame := usual_tame.masked
  tameSecond := usual_tame.masked
  close session scope := Or.inr (Session.arena_closeScope session scope)
  act := masked_matches.act

theorem usual_repeats : usual.Matches Streams.Alike usual where
  proper := usual_proper
  tame := usual_tame
  tameSecond := usual_tame
  close session scope := Or.inr (Session.arena_closeScope session scope)
  act := keeping_matches.act

end Regime

namespace Moment

variable {permits : Request → Prop}

/-- At any moment of a session's life, what a procedure does with given arguments it does again when it is invoked once
more in the scopes that the first invocation has left, from the same streams: it ends after as many steps, with the same
value or the same escape up to the handles of scopes that the invocations have opened. With `debug` masked, the streams are
the same in the end; as it is, the same is written but for numbers of scopes. -/
theorem invocation_repeatable {moment : Moment} (reached : moment.Reachable permits) {procedure : Procedure}
    {arguments : List Value} (known : ∀ value ∈ Value.procedure procedure :: arguments, moment.Knows value) :
    moment.phase.session.Repeats Eq Regime.usual.masked procedure arguments ∧
    (moment.phase.session.streams.output.room = none →
      moment.phase.session.Repeats Streams.Alike .usual procedure arguments) := by
  obtain ⟨owned, hosts⟩ := reached.sound.hosts
  have safe : ∀ value ∈ Value.procedure procedure :: arguments, moment.arena.Safe ∅ value :=
    fun value member => (known value member).safe reached.sound
  constructor
  · exact Session.repeats Regime.masked_repeats hosts.tidy hosts.closed rfl safe
  · intro unbounded
    have same : moment.phase.session.streams.Alike moment.phase.session.streams :=
      ⟨.same _, ⟨unbounded, unbounded⟩, rfl, rfl⟩
    exact Session.repeats Regime.usual_repeats hosts.tidy hosts.closed same safe

/-- A procedure that shows its argument and gives back a procedure made inside it. The first invocation captures scope #1
and the second scope #2. -/
theorem invocation_repeatable_capturing :
    ∃ (moment : Moment) (make : Closure) (first : Closure) (after again : Session) (move : Equiv.Perm ScopeId),
      moment.Reachable (fun _ => True) ∧
      moment.phase.session.invoke 40 (.closure make) [.boolean true] = some (.ok (.procedure (.closure first)), after) ∧
      (after.withStreams moment.phase.session.streams).invoke 40 (.closure make) [.boolean true] =
        some (.ok (.procedure (.closure (first.rename move))), again) ∧
      first.scope = ⟨1⟩ ∧ move first.scope = ⟨2⟩ ∧ after.streams.output.written = "true\n" ∧
      after.streams.Alike again.streams := by
  have ran : ∃ outcome session make first second scope after again, (Session.start (.ofInput []) .silent).run 60
      [.definition "make" ["x"] [.definition "get" ["y"] [.returns (.identifier "x" 3) 3] 0 2,
        .call (.identifier "show" 4) [.identifier "x" 4] 4, .returns (.identifier "get" 5) 5] 0 1] =
        some (outcome, session) ∧
      session.arena.Live root ∧ session.arena.get? root = some scope ∧
      scope.bindings.find? "make" = some (.procedure (.closure make)) ∧
      session.invoke 40 (.closure make) [.boolean true] = some (.ok (.procedure (.closure first)), after) ∧
      (after.withStreams session.streams).invoke 40 (.closure make) [.boolean true] =
        some (.ok (.procedure (.closure second)), again) ∧
      first.scope = ⟨1⟩ ∧ second.scope = ⟨2⟩ ∧ session.streams.output.room = none ∧
      after.streams.output.written = "true\n" :=
    ⟨_, _, _, _, _, _, _, _, rfl, by decide, rfl, rfl, rfl, rfl, rfl, rfl, rfl, rfl⟩
  obtain ⟨outcome, session, make, first, second, scope, after, again, ran, live, found, named, ended, endedAgain, one, two,
    unbounded, shown⟩ := ran
  have reached : Reachable (fun _ => True) ⟨_, .idle session⟩ := ⟨_, _, Session.run_later [] trivial ran⟩
  have known : ∀ value ∈ [Value.procedure (.closure make), .boolean true],
      Knows ⟨Outcome.values outcome ++ [], .idle session⟩ value := by
    simp only [List.forall_mem_cons, List.not_mem_nil, false_imp_iff, implies_true, and_true]
    exact ⟨.bound root "make" live ⟨scope, found, Bindings.mem_of_find? named⟩, .plain rfl⟩
  obtain ⟨final, move, repeated, _, alike, _⟩ := (invocation_repeatable reached known).2 unbounded 40 _ after ended
  cases endedAgain.symm.trans repeated
  exact ⟨_, make, first, after, again, move, reached, ended, repeated, one, two, shown, alike⟩

end Moment
end Parlance
