import Parlance.Proofs.Arena.Census
import Parlance.Proofs.Machine.Sound

/-! The course of an evaluation: the configurations that it passes through. From it one can read which invocations were
opened and in which of them a definition was carried out; those are the ones whose scopes stay. -/
namespace Parlance

open Arena

namespace Config

/-- The configurations of the first `fuel` steps, to the last one if the evaluation ends. -/
def course (fuel : Nat) (config : Config) : List Config :=
  match fuel with
  | 0 => []
  | fuel + 1 =>
    config :: match config.step with
      | .running next => next.course fuel
      | .finished .. => []

/-- How many invocations are at work. -/
def depth (config : Config) : Nat :=
  (invocations config.stack).length

/-- Whether an invocation begins, with a scope of its own. -/
def opens (config : Config) : Bool :=
  match config.control with
  | .invoke (.closure c) arguments => arguments.length == c.params.length
  | _ => false

/-- Whether a procedure definition is carried out. -/
def defines (config : Config) : Bool :=
  match config.control with
  | .eval (.definition ..) _ => true
  | _ => false

end Config

namespace Course

/-- Whether a definition is carried out in the invocation at the given depth, before that one is over. -/
def definesAt (depth : Nat) : List Config → Bool
  | [] => false
  | config :: rest =>
    depth ≤ config.depth && (config.defines && config.depth == depth || definesAt depth rest)

/-- The number of invocations that begin and in which a definition is carried out. -/
def defining : List Config → Nat
  | [] => 0
  | config :: rest => (if config.opens && definesAt (config.depth + 1) rest then 1 else 0) + defining rest

theorem definesAt_shallow {depth : Nat} {config : Config} (rest : List Config) (past : config.depth < depth) :
    definesAt depth (config :: rest) = false := by
  simp [definesAt, Nat.not_le.mpr past]

theorem definesAt_calm {depth : Nat} {config : Config} (rest : List Config) (deep : depth ≤ config.depth)
    (calm : config.defines = false) : definesAt depth (config :: rest) = definesAt depth rest := by
  simp [definesAt, deep, calm]

theorem definesAt_lower {depth : Nat} {config : Config} (rest : List Config) (lower : depth < config.depth) :
    definesAt depth (config :: rest) = definesAt depth rest := by
  simp [definesAt, Nat.le_of_lt lower, Nat.ne_of_gt lower]

theorem definesAt_here {config : Config} (rest : List Config) (given : config.defines = true) :
    definesAt config.depth (config :: rest) = true := by
  simp [definesAt, given]

/-- Where no definition is carried out inside an invocation, none is counted. -/
theorem defining_eq_zero {course : List Config} (calm : ∀ config ∈ course, config.defines = true → config.depth = 0) :
    defining course = 0 := by
  have never : ∀ depth rest, (∀ config ∈ rest, config.defines = true → config.depth = 0) →
      definesAt (depth + 1) rest = false := by
    intro depth rest
    induction rest with
    | nil => exact fun _ => rfl
    | cons config rest ih =>
      intro calm
      obtain ⟨here, later⟩ := List.forall_mem_cons.mp calm
      cases given : config.defines with
      | false => simp [definesAt, given, ih later]
      | true => simp [definesAt, here given]
  induction course with
  | nil => rfl
  | cons config rest ih =>
    obtain ⟨_, later⟩ := List.forall_mem_cons.mp calm
    simp [defining, never _ rest later, ih later]

end Course

/-- What a step does to the number of scopes. -/
inductive Turn (config next : Config) : Prop
  | quiet (calm : config.defines = false) (shut : config.opens = false)
      (live : next.session.arena.live = config.session.arena.live)
      (captured : ∀ id, next.session.arena.Captured id ↔ config.session.arena.Captured id)
      (owned : invocations next.stack = invocations config.stack)
  | define (scope : ScopeId) (name : String) (value : Value) (given : config.defines = true)
      (shut : config.opens = false) (here : config.control.scope? = some scope)
      (arena : next.session.arena = (config.session.arena.capture scope).define scope name value)
      (owned : invocations next.stack = invocations config.stack)
  | enter (parent : ScopeId) (bindings : List (String × Value)) (calm : config.defines = false)
      (given : config.opens = true)
      (arena : next.session.arena = (config.session.arena.child parent).2.defineAll config.session.arena.vacant bindings)
      (owned : invocations next.stack = config.session.arena.vacant :: invocations config.stack)
  | pass (parent : ScopeId) (bindings : List (String × Value)) (calm : config.defines = false)
      (given : config.opens = true)
      (arena : next.session.arena = ((config.session.arena.child parent).2.defineAll config.session.arena.vacant
        bindings).release config.session.arena.vacant)
      (owned : invocations next.stack = invocations config.stack)
  | leave (scope : ScopeId) (calm : config.defines = false) (shut : config.opens = false)
      (arena : next.session.arena = config.session.arena.release scope)
      (owned : invocations config.stack = scope :: invocations next.stack)

namespace Turn

theorem still {config next : Config} (calm : config.defines = false) (shut : config.opens = false)
    (arena : next.session.arena = config.session.arena) (owned : invocations next.stack = invocations config.stack) :
    Turn config next :=
  .quiet calm shut (by rw [arena]) (fun id => by rw [arena]) owned

/-- A frame that goes on opens nothing and defines no procedure. -/
theorem ofEffect {config next : Config} (effect : Effect config next)
    (done : (∃ value, config.control = .value value) ∨ ∃ escape, config.control = .escape escape) : Turn config next := by
  have apart : config.defines = false ∧ config.opens = false := by
    rcases done with ⟨value, given⟩ | ⟨escape, given⟩ <;> simp [Config.defines, Config.opens, given]
  have other {node : Node} {scope : ScopeId} (given : config.control = .eval node scope) : False := by
    rcases done with ⟨value, same⟩ | ⟨escape, same⟩ <;> cases same.symm.trans given
  have another {procedure : Procedure} {arguments : List Value} (given : config.control = .invoke procedure arguments) :
      False := by
    rcases done with ⟨value, same⟩ | ⟨escape, same⟩ <;> cases same.symm.trans given
  cases effect with
  | still arena owned => exact still apart.1 apart.2 arena owned
  | assign place name scope rest value waiting given arena owned =>
    refine .quiet apart.1 apart.2 (by rw [arena, live_define]) (fun id => ?_) owned
    rw [arena, captured_define_iff]
  | definition name params body site line scope given arena owned => exact (other given).elim
  | enter closure arguments given arena owned => exact (another given).elim
  | leave scope arena owned => exact .leave scope apart.1 apart.2 arena owned
  | pass closure arguments given arena owned => exact (another given).elim

theorem eval (node : Node) (scope : ScopeId) (stack : List Frame) (session : Session) :
    Turn ⟨.eval node scope, stack, session⟩ (Config.eval node scope stack (session.note (.evaluating node))) := by
  cases node with
  | identifier name line =>
    simp only [Config.eval]
    split <;> exact .still rfl rfl rfl rfl
  | assignment target value line => cases target <;> exact .still rfl rfl rfl rfl
  | definition name params body site line => exact .define scope name _ rfl rfl rfl rfl rfl
  | call | literal | conditional | loop | breaks | returns => exact .still rfl rfl rfl rfl

theorem invoke (procedure : Procedure) (arguments : List Value) (stack : List Frame) (session : Session) :
    Turn ⟨.invoke procedure arguments, stack, session⟩
      (Config.invoke .usual procedure arguments stack session) := by
  cases procedure with
  | builtin b =>
    have arena : (session.act b.action arguments).2.arena = session.arena := rfl
    simp only [Config.invoke, Regime.usual]
    split
    · split
      · rename_i acted
        rw [acted] at arena
        exact .still rfl rfl arena rfl
      · rename_i acted
        rw [acted] at arena
        exact .still rfl rfl arena rfl
    · exact .still rfl rfl rfl rfl
  | closure c =>
    simp only [Config.invoke]
    split
    · rename_i fits
      have given : (⟨.invoke (.closure c) arguments, stack, session⟩ : Config).opens = true := by
        simp [Config.opens, fits]
      cases body : c.body with
      | nil =>
        refine .pass c.scope (c.params.zip arguments) rfl given ?_ rfl
        simp [Config.statements, Regime.usual]
      | cons statement rest =>
        refine .enter c.scope (c.params.zip arguments) rfl given ?_ ?_
        · simp [Config.statements]
        · simp [Config.statements]
    · rename_i unfit
      exact .still rfl (by simp [Config.opens, unfit]) rfl rfl

theorem step {config next : Config} (stepped : config.step = .running next) : Turn config next := by
  have effect := Effect.step Regime.usual_proper stepped
  obtain ⟨control, stack, session⟩ := config
  cases control with
  | eval node scope =>
    cases stepped
    exact eval node scope stack session
  | block statements scope => cases statements <;> cases stepped <;> exact .still rfl rfl rfl rfl
  | invoke procedure arguments =>
    cases stepped
    exact invoke procedure arguments stack session
  | value value => exact ofEffect effect (.inl ⟨value, rfl⟩)
  | escape escape => exact ofEffect effect (.inr ⟨escape, rfl⟩)

end Turn

namespace Course

/-- Of the scopes that invocations at work own, those that will be given back: they are not captured, and nothing is
defined in them on the course ahead. -/
def passing (arena : Arena) (course : List Config) : List ScopeId → Nat
  | [] => 0
  | id :: outer =>
    (if arena.Captured id ∨ definesAt (outer.length + 1) course = true then 0 else 1) + passing arena course outer

theorem passing_congr {arena next : Arena} {course rest : List Config} {owned : List ScopeId}
    (captured : ∀ id ∈ owned, next.Captured id ↔ arena.Captured id)
    (ahead : ∀ depth, depth ≤ owned.length → definesAt depth course = definesAt depth rest) :
    passing next rest owned = passing arena course owned := by
  induction owned with
  | nil => rfl
  | cons id outer ih =>
    obtain ⟨here, later⟩ := List.forall_mem_cons.mp captured
    have same := ih later fun depth le => ahead depth (Nat.le_succ_of_le le)
    simp only [passing, here, same, ahead (outer.length + 1) (Nat.le_refl _)]

/-- A configuration that defines nothing changes no more than what is captured. -/
theorem passing_calm {config : Config} (calm : config.defines = false) {arena : Arena} (rest : List Config)
    {owned : List ScopeId} (within : owned.length ≤ config.depth)
    (captured : ∀ id ∈ owned, arena.Captured id ↔ config.session.arena.Captured id) :
    passing arena rest owned = passing config.session.arena (config :: rest) owned :=
  passing_congr captured fun _ le => definesAt_calm _ (Nat.le_trans le within) calm

/-- Where a procedure is defined, the scope at work was going to stay, and is captured from then on. -/
theorem passing_define {base : Option ScopeId} {config : Config} {scope : ScopeId}
    (seats : config.session.arena.Seats base (invocations config.stack))
    (works : workplace base config.stack = some scope) (given : config.defines = true) (name : String) (value : Value) (rest : List Config) :
    passing ((config.session.arena.capture scope).define scope name value) rest (invocations config.stack) =
      passing config.session.arena (config :: rest) (invocations config.stack) := by
  have distinct := seats.distinct
  have alive := seats.live works
  unfold workplace at works
  cases stack : invocations config.stack with
  | nil => rfl
  | cons first outer =>
    rw [stack] at works distinct
    cases works
    obtain ⟨apart, _⟩ := List.nodup_cons.mp distinct
    have deep : outer.length + 1 = config.depth := by simp [Config.depth, stack]
    have marked : ((config.session.arena.capture scope).define scope name value).Captured scope :=
      (captured_define_iff ..).mpr (captured_capture_self alive)
    have outside : passing ((config.session.arena.capture scope).define scope name value) rest outer =
        passing config.session.arena (config :: rest) outer := by
      refine passing_congr ?_ fun depth le => definesAt_lower _ (by omega)
      intro id member
      have different : id ≠ scope := fun equal => apart (equal ▸ member)
      rw [captured_define_iff, captured_capture_iff different]
    simp [passing, marked, outside, deep, definesAt_here _ given]

end Course

namespace Config

open Course

variable {base : Option ScopeId} {config next : Config}

theorem course_running (fuel : Nat) (stepped : config.step = .running next) :
    config.course (fuel + 1) = config :: next.course fuel := by
  rw [course, stepped]

/-- The course of an evaluation that ends begins with its first configuration. -/
theorem course_begins {fuel : Nat} {outcome : Outcome} {after : Session} (ran : config.run fuel = some (outcome, after)) :
    ∃ rest, config.course fuel = config :: rest := by
  cases fuel with
  | zero => cases ran
  | succ fuel => exact ⟨_, rfl⟩

/-- What every step keeps holds all along the course. -/
theorem course_invariant {invariant : Config → Prop}
    (kept : ∀ config next, invariant config → config.step = .running next → invariant next) {fuel : Nat}
    (initial : invariant config) : ∀ passed ∈ config.course fuel, invariant passed := by
  induction fuel generalizing config with
  | zero => exact fun passed member => absurd member List.not_mem_nil
  | succ fuel ih =>
    cases stepped : config.step with
    | running next =>
      rw [course_running fuel stepped]
      exact List.forall_mem_cons.mpr ⟨initial, ih (kept config next initial stepped)⟩
    | finished outcome session =>
      rw [course, stepped]
      exact List.forall_mem_cons.mpr ⟨initial, fun passed member => absurd member List.not_mem_nil⟩

/-- How the number of live scopes changes from one configuration to the next, against what the course ahead will give
back and keep. -/
def Balances (config next : Config) (rest : List Config) : Prop :=
  config.session.arena.live + passing next.session.arena (next :: rest) (invocations next.stack) +
      defining (config :: next :: rest) =
    next.session.arena.live + passing config.session.arena (config :: next :: rest) (invocations config.stack) +
      defining (next :: rest)

namespace Balances

variable (rest : List Config)

theorem quiet (calm : config.defines = false) (shut : config.opens = false)
    (live : next.session.arena.live = config.session.arena.live)
    (captured : ∀ id, next.session.arena.Captured id ↔ config.session.arena.Captured id)
    (owned : invocations next.stack = invocations config.stack) : config.Balances next rest := by
  have same := passing_calm calm (next :: rest) (Nat.le_refl config.depth) fun id _ => captured id
  rw [Balances, owned, same, live, defining, shut]
  simp

section

variable (seats : config.session.arena.Seats base (invocations config.stack))
include seats

theorem define {scope : ScopeId} {name : String} {value : Value} (works : workplace base config.stack = some scope)
    (given : config.defines = true) (shut : config.opens = false)
    (arena : next.session.arena = (config.session.arena.capture scope).define scope name value)
    (owned : invocations next.stack = invocations config.stack) : config.Balances next rest := by
  have kept : next.session.arena.live = config.session.arena.live := by simp [arena]
  have same := passing_define seats works given name value (next :: rest)
  rw [← arena] at same
  rw [Balances, owned, same, kept, defining, shut]
  simp

theorem enter {parent : ScopeId} {bindings : List (String × Value)} (calm : config.defines = false)
    (given : config.opens = true)
    (arena : next.session.arena = (config.session.arena.child parent).2.defineAll config.session.arena.vacant bindings)
    (owned : invocations next.stack = config.session.arena.vacant :: invocations config.stack) :
    config.Balances next rest := by
  have more := live_enter seats.tidy parent bindings
  have unmarked := enter_uncaptured seats.tidy parent bindings
  have outside := passing_calm calm (next :: rest) (Nat.le_refl config.depth) fun id member =>
    captured_enter_iff seats.tidy parent bindings (seats.alive id member).1
  rw [← arena] at more unmarked outside
  -- The new scope will be given back, or else a definition is carried out in the invocation that begins here.
  rw [Balances, owned, passing, outside, more, defining, given]
  simp only [unmarked, false_or, Bool.true_and, depth]
  split <;> omega

theorem pass {parent : ScopeId} {bindings : List (String × Value)} (calm : config.defines = false)
    (arena : next.session.arena = ((config.session.arena.child parent).2.defineAll config.session.arena.vacant
      bindings).release config.session.arena.vacant)
    (owned : invocations next.stack = invocations config.stack) : config.Balances next rest := by
  have kept := live_pass seats.tidy parent bindings
  have same := passing_calm calm (next :: rest) (Nat.le_refl config.depth) fun id member =>
    captured_pass_iff seats.tidy parent bindings (seats.alive id member).1
  rw [← arena] at kept same
  have past : definesAt (config.depth + 1) (next :: rest) = false := definesAt_shallow _ (by simp [depth, owned])
  rw [Balances, owned, same, kept, defining, past]
  simp

theorem leave {scope : ScopeId} (calm : config.defines = false) (shut : config.opens = false)
    (arena : next.session.arena = config.session.arena.release scope)
    (owned : invocations config.stack = scope :: invocations next.stack) : config.Balances next rest := by
  have alive := seats.alive scope (owned ▸ List.mem_cons_self)
  have distinct := List.nodup_cons.mp (owned ▸ seats.distinct)
  have deep : config.depth = (invocations next.stack).length + 1 := by simp [depth, owned]
  have past : definesAt ((invocations next.stack).length + 1) (config :: next :: rest) = false := by
    rw [definesAt_calm _ (Nat.le_of_eq deep.symm) calm]
    exact definesAt_shallow _ (Nat.lt_succ_self _)
  have outside : passing next.session.arena (next :: rest) (invocations next.stack) =
      passing config.session.arena (config :: next :: rest) (invocations next.stack) := by
    refine passing_calm calm _ (by omega) fun id member => ?_
    have different : id ≠ scope := fun equal => distinct.1 (equal ▸ member)
    rw [arena, captured_release_iff alive.1 different]
  rw [Balances, owned, passing, past, outside, defining, shut]
  by_cases marked : config.session.arena.Captured scope
  · rw [arena, release_lasting (.inr marked)]
    simp [marked]
  · have ends : ¬ config.session.arena.Lasting scope := fun lasting => lasting.elim alive.2 marked
    have fewer := live_release seats.tidy alive.1 ends
    rw [← arena] at fewer
    simp [marked]
    omega

end

end Balances

theorem live_step (seats : config.session.arena.Seats base (invocations config.stack)) (placed : config.Placed base)
    (turn : Turn config next) (rest : List Config) : config.Balances next rest := by
  cases turn with
  | quiet calm shut live captured owned => exact Balances.quiet rest calm shut live captured owned
  | define scope name value given shut here arena owned =>
    exact Balances.define rest seats (placed.1 scope here) given shut arena owned
  | enter parent bindings calm given arena owned => exact Balances.enter rest seats calm given arena owned
  | pass parent bindings calm given arena owned => exact Balances.pass rest seats calm arena owned
  | leave scope calm shut arena owned => exact Balances.leave rest seats calm shut arena owned

/-- In the end, the live scopes are those there were, less those given back on the way, and one more for each invocation
in which a definition was carried out. -/
theorem run_live (seats : config.session.arena.Seats base (invocations config.stack)) (placed : config.Placed base)
    {fuel : Nat} {outcome : Outcome} {after : Session} (ran : config.run fuel = some (outcome, after)) :
    after.arena.live + passing config.session.arena (config.course fuel) (invocations config.stack) =
      config.session.arena.live + defining (config.course fuel) := by
  induction fuel generalizing config with
  | zero => cases ran
  | succ fuel ih =>
    simp only [run, runUnder] at ran
    cases stepped : config.step with
    | finished result session =>
      have ended : config.stepUnder .usual = .finished result session := stepped
      rw [ended] at ran
      cases ran
      obtain ⟨empty, same, _⟩ := step_finished ended
      rw [course, stepped, ← same, empty]
      simp [passing, defining, definesAt]
    | running next =>
      have goes : config.stepUnder .usual = .running next := stepped
      rw [goes] at ran
      have effect := Effect.step Regime.usual_proper goes
      have later := ih (seats_step seats placed effect) (Placed.step placed goes) ran
      obtain ⟨rest, begun⟩ := course_begins ran
      have now := live_step seats placed (Turn.step stepped) rest
      rw [begun] at later
      rw [course_running fuel stepped, begun]
      unfold Balances at now
      omega

end Config
end Parlance
