import Parlance.Proofs.Machine.Course
import Parlance.Proofs.Machine.Uniform
import Parlance.Proofs.Moment.Sound

/-! No scope leaks. However an evaluation ends, the scopes it has opened are gone, except for the captured ones, and the
scopes there were before are all there. The number of live scopes can thus be told from the definitions carried out
inside invocations, and between two requests from the captured scopes. -/
namespace Parlance

open Arena

namespace Arena

/-- Every live scope is one that was known, is captured or belongs to an invocation at work. -/
def Accounted (arena : Arena) (known : ScopeId → Prop) (owned : List ScopeId) : Prop :=
  ∀ id, arena.Live id → known id ∨ arena.Captured id ∨ id ∈ owned

namespace Accounted

variable {arena : Arena} {known : ScopeId → Prop} {base : Option ScopeId} {owned : List ScopeId}

theorem define (accounted : arena.Accounted known owned) (scope : ScopeId) (name : String) (value : Value) :
    (arena.define scope name value).Accounted known owned := by
  intro id live
  rw [captured_define_iff]
  exact accounted id ((live_define_iff ..).mp live)

theorem capture (accounted : arena.Accounted known owned) (scope : ScopeId) :
    (arena.capture scope).Accounted known owned := by
  intro id live
  have before := accounted id ((live_capture_iff ..).mp live)
  exact before.imp_right (Or.imp_left (captured_capture scope))

theorem enter (accounted : arena.Accounted known owned) (tidy : arena.Tidy) (parent : ScopeId)
    (bindings : List (String × Value)) :
    ((arena.child parent).2.defineAll arena.vacant bindings).Accounted known (arena.vacant :: owned) := by
  intro id live
  rw [live_defineAll_iff, live_child_iff tidy] at live
  rw [captured_defineAll_iff, List.mem_cons]
  rcases live with fresh | older
  · exact Or.inr (Or.inr (Or.inl fresh))
  · have different : id ≠ arena.vacant := fun same => arena.vacant_not_live (same ▸ older)
    rw [captured_child_iff tidy parent different]
    exact (accounted id older).imp_right (Or.imp_right Or.inr)

/-- A scope is given back when its invocation is over, unless it is captured. -/
theorem release {scope : ScopeId} (accounted : arena.Accounted known (scope :: owned))
    (seats : arena.Seats base (scope :: owned)) : (arena.release scope).Accounted known owned := by
  obtain ⟨alive, inner⟩ := seats.alive scope List.mem_cons_self
  intro id live
  have before := accounted id (live_of_release live)
  rw [List.mem_cons] at before
  by_cases lasting : arena.Lasting scope
  · have captured : arena.Captured scope := lasting.resolve_left inner
    rw [release_lasting lasting]
    rcases before with old | marked | rfl | owned
    · exact Or.inl old
    · exact Or.inr (Or.inl marked)
    · exact Or.inr (Or.inl captured)
    · exact Or.inr (Or.inr owned)
  · have different := ((live_release_iff lasting id).mp live).1
    rw [captured_release_iff alive different]
    exact before.imp_right (Or.imp_right (Or.resolve_left · different))

end Accounted
end Arena

namespace Config

variable {base : Option ScopeId} {config next : Config} {known : ScopeId → Prop}

theorem accounted_step (seats : config.session.arena.Seats base (invocations config.stack))
    (accounted : config.session.arena.Accounted known (invocations config.stack)) (effect : Effect config next) :
    next.session.arena.Accounted known (invocations next.stack) := by
  cases effect with
  | still arena owned =>
    rw [arena, owned]
    exact accounted
  | assign place name scope rest value waiting given arena owned =>
    rw [arena, owned]
    exact accounted.define scope name value
  | definition name params body site line scope given arena owned =>
    rw [arena, owned]
    exact (accounted.capture scope).define scope name _
  | enter closure arguments given arena owned =>
    rw [arena, owned]
    exact accounted.enter seats.tidy closure.scope _
  | leave scope arena owned =>
    rw [arena]
    rw [owned] at accounted seats
    exact accounted.release seats
  | pass closure arguments given arena owned =>
    rw [arena, owned]
    have opened := seats.child closure.scope
    exact (accounted.enter seats.tidy closure.scope _).release
      (opened.defineAll (opened.alive _ List.mem_cons_self).1 _)

/-- A configuration on the way from the arena `before`: the scopes that were alive then still are and belong to no
invocation, and every other live scope is captured or belongs to one. -/
structure Balanced (before : Arena) (base : Option ScopeId) (config : Config) : Prop where
  seats : config.session.arena.Seats base (invocations config.stack)
  placed : config.Placed base
  stays : ∀ id, before.Live id → config.session.arena.Live id ∧ id ∉ invocations config.stack
  accounted : config.session.arena.Accounted before.Live (invocations config.stack)

namespace Balanced

variable {before : Arena}

theorem stays_step (balanced : config.Balanced before base) (effect : Effect config next) :
    ∀ id, before.Live id → next.session.arena.Live id ∧ id ∉ invocations next.stack := by
  intro id old
  obtain ⟨live, apart⟩ := balanced.stays id old
  have fresh : id ≠ config.session.arena.vacant := fun same => config.session.arena.vacant_not_live (same ▸ live)
  cases effect with
  | still arena owned =>
    rw [arena, owned]
    exact ⟨live, apart⟩
  | assign place name scope rest value waiting given arena owned =>
    rw [arena, owned]
    exact ⟨(live_define_iff ..).mpr live, apart⟩
  | definition name params body site line scope given arena owned =>
    rw [arena, owned]
    exact ⟨(live_define_iff ..).mpr ((live_capture_iff ..).mpr live), apart⟩
  | enter closure arguments given arena owned =>
    rw [arena, owned]
    refine ⟨(spares_enter balanced.seats.tidy closure.scope _ id fresh live).1, ?_⟩
    exact List.not_mem_cons_of_ne_of_not_mem fresh apart
  | leave scope arena owned =>
    rw [owned, List.mem_cons, not_or] at apart
    have alive := (balanced.seats.alive scope (owned ▸ List.mem_cons_self)).1
    rw [arena]
    exact ⟨(spares_release alive id apart.1 live).1, apart.2⟩
  | pass closure arguments given arena owned =>
    rw [arena, owned]
    exact ⟨(spares_pass balanced.seats.tidy closure.scope _ id fresh live).1, apart⟩

theorem step (balanced : config.Balanced before base) (stepped : config.stepUnder .usual = .running next) :
    next.Balanced before base := by
  have effect := Effect.step Regime.usual_proper stepped
  exact ⟨seats_step balanced.seats balanced.placed effect, Placed.step balanced.placed stepped,
    balanced.stays_step effect, accounted_step balanced.seats balanced.accounted effect⟩

/-- Nothing is at work yet when an evaluation begins. -/
theorem begin {control : Control} {session : Session} (tidy : session.arena.Tidy)
    (inside : ∀ scope, control.scope? = some scope → session.arena.Live scope) :
    Balanced session.arena control.scope? ⟨control, [], session⟩ where
  seats := ⟨tidy, List.nodup_nil, fun _ member => absurd member List.not_mem_nil,
    fun scope given => ⟨inside scope given, List.not_mem_nil⟩⟩
  placed := ⟨fun _ given => given, trivial⟩
  stays _ live := ⟨live, List.not_mem_nil⟩
  accounted _ live := Or.inl live

end Balanced
end Config

/-- What an evaluation may leave behind: every scope there was, captured scopes, and as many of these as there were
invocations in which a definition was carried out. -/
structure Leakless (before after : Arena) (course : List Config) : Prop where
  stays : ∀ id, before.Live id → after.Live id
  captured : ∀ id, after.Live id → ¬ before.Live id → after.Captured id
  grows : after.live = before.live + Course.defining course
  level : (∀ config ∈ course, config.defines = true → config.depth = 0) → after.live = before.live

namespace Session

/-- A new session has no scope but the root. -/
theorem live_start {streams : Streams} {filter : Filter} {id : ScopeId}
    (live : (Session.start streams filter).arena.Live id) : id = root := by
  rw [arena_start, live_defineAll_iff] at live
  obtain ⟨index⟩ := id
  exact congrArg ScopeId.mk (Nat.lt_one_iff.mp live.1)

theorem leakless {session after : Session} (tidy : session.arena.Tidy) {control : Control}
    (inside : ∀ scope, control.scope? = some scope → session.arena.Live scope) {fuel : Nat} {outcome : Outcome}
    (ran : Config.run fuel ⟨control, [], session⟩ = some (outcome, after)) :
    Leakless session.arena after.arena (Config.course fuel ⟨control, [], session⟩) := by
  have begun := Config.Balanced.begin tidy inside
  have grows : after.arena.live = _ := Config.run_live begun.seats begun.placed ran
  obtain ⟨last, balanced, finished⟩ := Config.run_invariant (fun _ _ => Config.Balanced.step) begun ran
  obtain ⟨empty, rfl, _⟩ := step_finished finished
  refine ⟨fun id live => (balanced.stays id live).1, ?_, grows, ?_⟩
  · intro id live new
    have accounted := (balanced.accounted id live).resolve_left new
    rw [empty] at accounted
    exact accounted.resolve_right List.not_mem_nil
  · intro calm
    rw [grows, Course.defining_eq_zero calm]
    rfl

end Session

namespace Moment

variable {permits : Request → Prop} {now next : Moment}

theorem Sound.accounted_next (sound : now.Sound) (accounted : now.arena.Accounted (· = root) (invocations now.phase.stack))
    (move : Next permits now next) : next.arena.Accounted (· = root) (invocations next.phase.stack) := by
  cases move with
  | talk | take | run | statement | invoke => exact accounted
  | register => exact accounted.define _ _ _
  | step stepped =>
    exact Config.accounted_step sound.phase.hosts.toSeats accounted (Effect.step Regime.usual_proper stepped)
  | finish stepped =>
    obtain ⟨empty, rfl, _⟩ := step_finished stepped
    have ended := accounted
    simp only [Phase.stack, empty] at ended
    exact ended

/-- At every moment, a scope that is not the root is captured or belongs to an invocation at work. -/
theorem Reachable.accounted {moment : Moment} (reached : moment.Reachable permits) :
    moment.arena.Accounted (· = root) (invocations moment.phase.stack) := by
  obtain ⟨streams, filter, path⟩ := reached
  induction path with
  | refl => exact fun id live => Or.inl (Session.live_start live)
  | tail path move ih =>
    have reached : Reachable permits _ := ⟨streams, filter, path⟩
    exact reached.sound.accounted_next ih move

/-- No scope leaks, at every moment of a session's life and however an evaluation ends: what was alive stays alive, what
is new is captured, and the live scopes grow by one for each invocation in which a definition was carried out. Between two
requests there are the root and the captured scopes, and no other. -/
theorem no_scope_leaks {moment : Moment} (reached : moment.Reachable permits) :
    (∀ control fuel outcome after, (∀ scope, control.scope? = some scope → moment.arena.Live scope) →
      Config.run fuel ⟨control, [], moment.phase.session⟩ = some (outcome, after) →
      Leakless moment.arena after.arena (Config.course fuel ⟨control, [], moment.phase.session⟩)) ∧
    ∀ session, moment.phase = .idle session → session.arena.live = 1 + session.arena.capturedInner := by
  obtain ⟨owned, hosts⟩ := reached.sound.hosts
  refine ⟨?_, ?_⟩
  · intro control fuel outcome after inside ran
    exact Session.leakless hosts.tidy inside ran
  · intro session idle
    have accounted := reached.accounted
    have tidy := hosts.tidy
    simp only [arena, idle, Phase.session, Phase.stack] at accounted tidy
    refine tidy.live_census fun id live => ?_
    exact (accounted id live).imp_right (Or.resolve_right · List.not_mem_nil)

/-- An invocation of `outer` invokes `make`, which defines a procedure and then fails. Both are abandoned; the scope of
`outer` is given back, and that of `make` stays. -/
theorem no_scope_leaks_on_failure :
    ∃ (moment : Moment) (escape : Escape) (after : Session), moment.Reachable (fun _ => True) ∧
      moment.arena.live = 1 ∧
      Config.run 40 ⟨.eval (.call (.identifier "outer" 7) [.literal (.boolean true) 7] 7) root, [],
        moment.phase.session⟩ = some (.error escape, after) ∧
      (∀ id, after.arena.Live id → ¬ moment.arena.Live id → after.arena.Captured id) ∧ after.arena.live = 2 := by
  have ran : ∃ outcome session escape after, (Session.start (.ofInput []) .silent).run 40
      [.definition "make" ["x"]
          [.definition "get" ["y"] [.returns (.identifier "x" 3) 3] 0 2, .identifier "nowhere" 4] 0 1,
        .definition "outer" ["x"] [.call (.identifier "make" 6) [.identifier "x" 6] 6] 0 5] =
        some (outcome, session) ∧
      session.arena.Live root ∧ session.arena.live = 1 ∧
      Config.run 40 ⟨.eval (.call (.identifier "outer" 7) [.literal (.boolean true) 7] 7) root, [], session⟩ =
        some (.error escape, after) ∧
      Course.defining (Config.course 40
        ⟨.eval (.call (.identifier "outer" 7) [.literal (.boolean true) 7] 7) root, [], session⟩) = 1 :=
    ⟨_, _, _, _, rfl, by decide, rfl, rfl, rfl⟩
  obtain ⟨outcome, session, escape, after, ran, live, one, failed, once⟩ := ran
  have reached : Reachable (fun _ => True) ⟨_, .idle session⟩ := ⟨_, _, Session.run_later [] trivial ran⟩
  obtain ⟨leaks, _⟩ := no_scope_leaks reached
  have leakless := leaks _ _ _ _ (by rintro scope ⟨⟩; exact live) failed
  refine ⟨_, escape, after, reached, one, failed, leakless.captured, ?_⟩
  exact leakless.grows.trans (congrArg₂ (· + ·) one once)

end Moment
end Parlance
