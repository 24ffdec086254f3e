import Parlance.Proofs.Machine.Discipline
import Parlance.Proofs.Machine.Uniform
import Parlance.Proofs.Moment.Sound
import Parlance.Proofs.Node.Quiet

/-! The frame law. An evaluation writes to the scope in which it takes place and to scopes that it opens itself; every
other scope that was alive stays as it was, however the evaluation ends. An invocation writes to new scopes only, and
so does a node that neither assigns nor defines. -/
namespace Parlance

open Arena

/-- The scope is still alive, with the same bindings, the same parent and the same mark. -/
def Arena.Unchanged (before after : Arena) (id : ScopeId) : Prop :=
  after.Live id ∧ after.get? id = before.get? id

namespace Discipline

/-- Nothing is assigned or defined. -/
def quiet : Discipline :=
  ⟨fun node => node.isQuiet = true, fun _ => False⟩

theorem quiet_lawful : quiet.Lawful where
  call callee arguments line given := by simpa [quiet, Node.isQuiet, Node.allQuiet_iff] using given
  assignment name inner value line given := by simp [quiet, Node.isQuiet] at given
  conditional condition thenBlock elseBlock line given := by
    simpa [quiet, Node.isQuiet, Node.allQuiet_iff, and_assoc] using given
  loop condition body otherwise line given := by
    simpa [quiet, Node.isQuiet, Node.allQuiet_iff, and_assoc] using given
  returns value line given := by simpa [quiet, Node.isQuiet] using given

end Discipline

/-- A configuration on the way from the arena `before`: its invocations work in scopes that were not alive then, and all
scopes that were are unchanged, except for the base unless it is `calm` there. -/
structure Config.Framed (before : Arena) (base : Option ScopeId) (calm : Prop) (config : Config) : Prop where
  seats : config.session.arena.Seats base (invocations config.stack)
  placed : config.Placed base
  obeys : calm → config.Obeys .quiet .free
  fresh : ∀ id ∈ invocations config.stack, ¬ before.Live id
  unchanged : ∀ id, before.Live id → (base = some id → calm) → before.Unchanged config.session.arena id

namespace Config.Framed

variable {before : Arena} {base : Option ScopeId} {calm : Prop} {config next : Config} {regime : Regime}

theorem vacant_fresh (framed : config.Framed before base calm) : ¬ before.Live config.session.arena.vacant := by
  intro live
  refine config.session.arena.vacant_not_live ?_
  by_cases based : base = some config.session.arena.vacant
  · exact (framed.seats.based _ based).1
  · exact (framed.unchanged _ live fun given => absurd given based).1

theorem fresh_step (framed : config.Framed before base calm) (effect : Effect config next) :
    ∀ id ∈ invocations next.stack, ¬ before.Live id := by
  cases effect with
  | still _ owned | assign _ _ _ _ _ _ _ _ owned | definition _ _ _ _ _ _ _ _ owned | pass _ _ _ _ owned =>
    rw [owned]
    exact framed.fresh
  | enter closure arguments given arena owned =>
    rw [owned]
    intro id member
    rcases List.mem_cons.mp member with rfl | older
    · exact framed.vacant_fresh
    · exact framed.fresh id older
  | leave scope arena owned =>
    intro id member
    exact framed.fresh id (owned ▸ List.mem_cons_of_mem _ member)

/-- The base changes by assignments and definitions only, and there are none where it is calm. -/
theorem change_apart (framed : config.Framed before base calm) {scope : ScopeId} (change : config.Change base scope)
    {id : ScopeId} (live : before.Live id) (spared : base = some id → calm) : id ≠ scope := by
  rintro rfl
  cases change with
  | own member => exact framed.fresh id member live
  | opened fresh => exact framed.vacant_fresh (fresh ▸ live)
  | assign place name rest alone based waiting =>
    have obeys := (framed.obeys (spared based)).2
    have alone' := alone
    rw [waiting] at obeys alone'
    have broken := obeys.1
    unfold prevailing at broken
    rw [alone'] at broken
    exact broken
  | definition name params body site line alone based given =>
    have obeys := (framed.obeys (spared based)).1
    rw [given] at obeys
    unfold prevailing at obeys
    rw [alone] at obeys
    cases obeys

theorem step (proper : regime.Proper) (framed : config.Framed before base calm)
    (stepped : config.stepUnder regime = .running next) : next.Framed before base calm := by
  have effect := Effect.step proper stepped
  obtain ⟨scope, change, spares⟩ := step_spares framed.seats framed.placed effect
  refine ⟨seats_step framed.seats framed.placed effect, Placed.step framed.placed stepped, ?_,
    framed.fresh_step effect, ?_⟩
  · intro quiet
    exact Obeys.step Discipline.quiet_lawful Discipline.free_lawful (fun _ _ _ _ _ => trivial) (framed.obeys quiet)
      stepped
  · intro id live spared
    obtain ⟨alive, same⟩ := framed.unchanged id live spared
    obtain ⟨after, still⟩ := spares id (framed.change_apart change live spared) alive
    exact ⟨after, still.trans same⟩

theorem run (proper : regime.Proper) (framed : config.Framed before base calm) {fuel : Nat} {outcome : Outcome}
    {after : Session} (ran : config.runUnder regime fuel = some (outcome, after)) :
    ∀ id, before.Live id → (base = some id → calm) → before.Unchanged after.arena id := by
  obtain ⟨last, framed, finished⟩ :=
    run_invariant (fun _ _ framed stepped => step proper framed stepped) framed ran
  obtain ⟨_, rfl, _⟩ := step_finished finished
  exact framed.unchanged

end Config.Framed

/-- An invocation that begins has nothing open, and has changed no scope. -/
theorem Config.framed_invoke {session : Session} (tidy : session.arena.Tidy) (procedure : Procedure)
    (arguments : List Value) : Config.Framed session.arena none True ⟨.invoke procedure arguments, [], session⟩ := by
  refine ⟨⟨tidy, List.nodup_nil, ?_, ?_⟩, ⟨?_, trivial⟩, fun _ => ⟨trivial, trivial⟩, ?_, ?_⟩
  · exact fun id member => absurd member List.not_mem_nil
  · rintro id ⟨⟩
  · rintro other ⟨⟩
  · exact fun id member => absurd member List.not_mem_nil
  · exact fun id alive _ => ⟨alive, rfl⟩

namespace Session

variable {session after : Session} {fuel : Nat} {outcome : Outcome}

theorem eval_frame (tidy : session.arena.Tidy) {scope : ScopeId} (live : session.arena.Live scope) {node : Node}
    (ran : Config.run fuel ⟨.eval node scope, [], session⟩ = some (outcome, after)) :
    ∀ id, session.arena.Live id → (id = scope → node.isQuiet = true) → session.arena.Unchanged after.arena id := by
  have framed : Config.Framed session.arena (some scope) (node.isQuiet = true) ⟨.eval node scope, [], session⟩ := by
    refine ⟨⟨tidy, List.nodup_nil, ?_, ?_⟩, ⟨?_, trivial⟩, fun quiet => ⟨quiet, trivial⟩, ?_, ?_⟩
    · exact fun id member => absurd member List.not_mem_nil
    · rintro id ⟨⟩
      exact ⟨live, List.not_mem_nil⟩
    · rintro other ⟨⟩
      rfl
    · exact fun id member => absurd member List.not_mem_nil
    · exact fun id alive _ => ⟨alive, rfl⟩
  intro id alive spared
  exact framed.run Regime.usual_proper ran id alive fun based => spared (Option.some.inj based).symm

theorem invoke_frame (tidy : session.arena.Tidy) {procedure : Procedure} {arguments : List Value}
    (ran : session.invoke fuel procedure arguments = some (outcome, after)) :
    ∀ id, session.arena.Live id → session.arena.Unchanged after.arena id := by
  intro id alive
  exact (Config.framed_invoke tidy procedure arguments).run Regime.usual_proper ran id alive fun _ => trivial

/-- An assignment that fails has not got to the point where it binds. -/
theorem failed_assignment_frame (tidy : session.arena.Tidy) {scope : ScopeId} (live : session.arena.Live scope)
    {target value : Node} {line : Nat} (quiet : value.isQuiet = true) {escape : Escape}
    (ran : Config.run fuel ⟨.eval (.assignment target value line) scope, [], session⟩ = some (.error escape, after)) :
    ∀ id, session.arena.Live id → session.arena.Unchanged after.arena id := by
  cases fuel with
  | zero => cases ran
  | succ fuel =>
    cases target with
    | identifier name inside =>
      let noted := session.note (.evaluating (.assignment (.identifier name inside) value line))
      let waiting : Frame := .assign (Node.assignment (.identifier name inside) value line).place name scope
      have split : ((⟨.eval value scope, [], noted⟩ : Config).atop [waiting]).runUnder .usual fuel =
          some (.error escape, after) := ran
      obtain ⟨first, outcome, middle, rest, above, below⟩ := Config.run_atop [waiting] split
      cases rest with
      | zero => cases below
      | succ rest =>
        cases outcome with
        | ok result =>
          have ended := Config.run_done (show (⟨Outcome.control (.ok .nothing), [],
            middle.define scope name result⟩ : Config).runUnder .usual rest = _ from below)
          cases ended
        | error reason =>
          have ended := Config.run_done (show (⟨Outcome.control (.error (reason.passing _ _)), [],
            middle⟩ : Config).runUnder .usual rest = _ from below)
          cases ended
          have notedTidy : noted.arena.Tidy := tidy
          exact fun id alive => eval_frame notedTidy live above id alive fun _ => quiet
    | call | literal | assignment | conditional | loop | breaks | definition | returns =>
      have ended := Config.run_done (show (⟨Outcome.control (.error (.ofFault (.badTarget _))), [],
        session.note _⟩ : Config).runUnder .usual fuel = _ from ran)
      cases ended
      exact fun id alive => ⟨alive, rfl⟩

end Session

namespace Moment

variable {permits : Request → Prop} {now next : Moment} {id : ScopeId}

/-- A scope that no invocation at work owns, other than the root, is left alone by every move. -/
theorem Sound.settled (sound : now.Sound) (move : Next permits now next) (live : now.arena.Live id) (inner : id ≠ root)
    (left : id ∉ invocations now.phase.stack) :
    now.arena.Unchanged next.arena id ∧ id ∉ invocations next.phase.stack := by
  cases move with
  | talk | take | run | statement | invoke => exact ⟨⟨live, rfl⟩, List.not_mem_nil⟩
  | @register held session builtin allowed =>
    exact ⟨spares_define root builtin.name _ id inner live, List.not_mem_nil⟩
  | @step held config next stepped =>
    have effect := Effect.step Regime.usual_proper stepped
    have fresh : id ≠ config.session.arena.vacant := fun same => config.session.arena.vacant_not_live (same ▸ live)
    obtain ⟨scope, change, spares⟩ := Config.step_spares sound.phase.hosts.toSeats sound.phase.placed effect
    have apart : id ≠ scope := by
      rintro rfl
      cases change with
      | own member => exact left member
      | opened new => exact fresh new
      | assign place name rest alone based waiting => exact inner (Option.some.inj based).symm
      | definition name params body site line alone based given => exact inner (Option.some.inj based).symm
    refine ⟨spares id apart live, ?_⟩
    cases effect with
    | still _ owned | assign _ _ _ _ _ _ _ _ owned | definition _ _ _ _ _ _ _ _ owned | pass _ _ _ _ owned =>
      exact fun member => left (owned ▸ member)
    | enter closure arguments given arena owned =>
      intro member
      rcases List.mem_cons.mp (owned ▸ member) with new | older
      · exact fresh new
      · exact left older
    | leave scope arena owned => exact fun member => left (owned ▸ List.mem_cons_of_mem _ member)
  | @finish held config outcome session stepped =>
    obtain ⟨_, rfl, _⟩ := step_finished stepped
    exact ⟨⟨live, rfl⟩, List.not_mem_nil⟩

theorem Sound.settled_later (sound : now.Sound) (path : Later permits now next) (live : now.arena.Live id)
    (inner : id ≠ root) (left : id ∉ invocations now.phase.stack) : now.arena.Unchanged next.arena id := by
  have kept : next.Sound ∧ now.arena.Unchanged next.arena id ∧ id ∉ invocations next.phase.stack := by
    induction path with
    | refl => exact ⟨sound, ⟨live, rfl⟩, left⟩
    | tail _ move ih =>
      obtain ⟨sound, unchanged, left⟩ := ih
      obtain ⟨again, left⟩ := sound.settled move unchanged.1 inner left
      exact ⟨sound.move move, ⟨again.1, again.2.trans unchanged.2⟩, left⟩
  exact kept.2.1

/-- The frame law, at every moment of a session's life. Of the scopes that are alive, evaluating a node changes at most
the one in which it is evaluated, and not that one either if the node is quiet, as all written expressions are; invoking a
procedure changes none; an assignment whose value cannot be computed changes none; and a captured scope whose invocation
is over is never changed again. -/
theorem evaluation_frame {moment : Moment} (reached : moment.Reachable permits) :
    (∀ node scope fuel outcome after, moment.arena.Live scope →
      Config.run fuel ⟨.eval node scope, [], moment.phase.session⟩ = some (outcome, after) →
      ∀ id, moment.arena.Live id → (id = scope → node.isQuiet = true) → moment.arena.Unchanged after.arena id) ∧
    (∀ words anchor node, (Expression.read words anchor).result = .ok node → node.isQuiet = true) ∧
    (∀ procedure arguments fuel outcome after,
      moment.phase.session.invoke fuel procedure arguments = some (outcome, after) →
      ∀ id, moment.arena.Live id → moment.arena.Unchanged after.arena id) ∧
    (∀ target value line scope fuel escape after, value.isQuiet = true → moment.arena.Live scope →
      Config.run fuel ⟨.eval (.assignment target value line) scope, [], moment.phase.session⟩ =
        some (.error escape, after) →
      ∀ id, moment.arena.Live id → moment.arena.Unchanged after.arena id) ∧
    ∀ id next, moment.arena.Captured id → id ≠ root → id ∉ invocations moment.phase.stack →
      Later permits moment next → moment.arena.Unchanged next.arena id := by
  obtain ⟨owned, hosts⟩ := reached.sound.hosts
  have tidy : moment.phase.session.arena.Tidy := hosts.tidy
  refine ⟨?_, ?_, ?_, ?_, ?_⟩
  · intro node scope fuel outcome after live ran
    exact Session.eval_frame tidy live ran
  · intro words anchor node read
    exact Expression.read_quiet words anchor node read
  · intro procedure arguments fuel outcome after ran
    exact Session.invoke_frame tidy ran
  · intro target value line scope fuel escape after quiet live ran
    exact Session.failed_assignment_frame tidy live quiet ran
  · intro id next captured inner left path
    exact reached.sound.settled_later path (tidy.captured_live captured) inner left

/-- A definition inside a procedure captures the scope #1 of its invocation. A binding made there afterwards does change
it, and leaves the root as it was; from then on no later run changes it. -/
theorem evaluation_frame_captured :
    ∃ moment after, moment.Reachable (fun _ => True) ∧ moment.arena.Captured ⟨1⟩ ∧
      Config.run 5 ⟨.eval (.assignment (.identifier "z" 1) (.literal .nothing 1) 1) ⟨1⟩, [], moment.phase.session⟩ =
        some (.ok .nothing, after) ∧
      ¬ moment.arena.Unchanged after.arena ⟨1⟩ ∧ moment.arena.Unchanged after.arena root ∧
      ∀ next, Later (fun _ => True) moment next → moment.arena.Unchanged next.arena ⟨1⟩ := by
  have ran : ∃ outcome session, (Session.start (.ofInput []) .silent).run 40
      [.definition "make" ["x"] [.definition "get" ["y"] [.returns (.identifier "x" 3) 3] 0 2] 0 1,
        .call (.identifier "make" 4) [.literal (.boolean true) 4] 4] = some (outcome, session) ∧
      session.arena.Live root ∧ session.arena.Captured ⟨1⟩ ∧
      (session.arena.get? ⟨1⟩).map (·.bindings.length) = some 2 ∧
      ∃ after, Config.run 5 ⟨.eval (.assignment (.identifier "z" 1) (.literal .nothing 1) 1) ⟨1⟩, [], session⟩ =
        some (.ok .nothing, after) ∧ (after.arena.get? ⟨1⟩).map (·.bindings.length) = some 3 :=
    ⟨_, _, rfl, by decide, ⟨_, rfl, rfl⟩, rfl, _, rfl, rfl⟩
  obtain ⟨outcome, session, ran, live, captured, two, after, assigned, three⟩ := ran
  have reached : Reachable (fun _ => True) ⟨_, .idle session⟩ := ⟨_, _, Session.run_later [] trivial ran⟩
  obtain ⟨frame, _, _, _, settled⟩ := evaluation_frame reached
  have tidy : session.arena.Tidy := reached.sound.phase.tidy
  refine ⟨_, after, reached, captured, assigned, ?_, ?_, ?_⟩
  · rintro ⟨_, same⟩
    have lengths := congrArg (Option.map fun scope => scope.bindings.length) same
    rw [three] at lengths
    cases two.symm.trans lengths.symm
  · exact frame _ _ _ _ _ (tidy.captured_live captured) assigned root live (fun same => by cases same)
  · exact fun next path => settled ⟨1⟩ next captured (by decide) List.not_mem_nil path

end Moment
end Parlance
