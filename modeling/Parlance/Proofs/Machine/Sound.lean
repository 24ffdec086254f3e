import Parlance.Proofs.Arena.Seats
import Parlance.Proofs.Machine.Effect

/-! Sound configurations: the free list is tidy, what can be followed stays at home, every value in hand is safe, and each
invocation at work has a live scope of its own. A step keeps all of this, whether it gives a value or an escape, and it
changes at most one scope. -/
namespace Parlance

open Arena

namespace Config

variable {base : Option ScopeId} {config next : Config}

/-- The scope of an assignment that waits for its value is the one at work. -/
theorem Placed.assign (placed : config.Placed base) {place : Place} {name : String} {scope : ScopeId}
    {rest : List Frame} (waiting : config.stack = .assign place name scope :: rest) :
    workplace base config.stack = some scope := by
  have below := placed.2
  rw [waiting] at below ⊢
  exact below.1 scope rfl

theorem Placed.definition (placed : config.Placed base) {name : String} {params : List String} {body : List Node}
    {site line : Nat} {scope : ScopeId} (given : config.control = .eval (.definition name params body site line) scope) :
    workplace base config.stack = some scope :=
  placed.1 scope (by rw [given]; rfl)

theorem seats_step (seats : config.session.arena.Seats base (invocations config.stack)) (placed : config.Placed base)
    (effect : Effect config next) : next.session.arena.Seats base (invocations next.stack) := by
  cases effect with
  | still arena owned =>
    rw [arena, owned]
    exact seats
  | assign place name scope rest value waiting given arena owned =>
    rw [arena, owned]
    exact seats.define (seats.live (placed.assign waiting)) name value
  | definition name params body site line scope given arena owned =>
    rw [arena, owned]
    have live := seats.live (placed.definition given)
    exact (seats.capture live).define ((live_capture_iff ..).mpr live) name _
  | enter closure arguments given arena owned =>
    rw [arena, owned]
    have opened := seats.child closure.scope
    exact opened.defineAll (opened.alive _ List.mem_cons_self).1 _
  | leave scope arena owned =>
    rw [arena]
    exact (owned ▸ seats).release
  | pass closure arguments given arena owned =>
    rw [arena, owned]
    have opened := seats.child closure.scope
    exact (opened.defineAll (opened.alive _ List.mem_cons_self).1 _).release

/-- A scope that a step may change: one that an invocation owns, a new one, or the base, where only assignments and
definitions are made. -/
inductive Change (base : Option ScopeId) (config : Config) (scope : ScopeId) : Prop
  | own (member : scope ∈ invocations config.stack)
  | opened (fresh : scope = config.session.arena.vacant)
  | assign (place : Place) (name : String) (rest : List Frame) (alone : invocations config.stack = [])
      (based : base = some scope) (waiting : config.stack = .assign place name scope :: rest)
  | definition (name : String) (params : List String) (body : List Node) (site line : Nat)
      (alone : invocations config.stack = []) (based : base = some scope)
      (given : config.control = .eval (.definition name params body site line) scope)

theorem step_spares (seats : config.session.arena.Seats base (invocations config.stack)) (placed : config.Placed base)
    (effect : Effect config next) :
    ∃ scope, config.Change base scope ∧ Spares scope config.session.arena next.session.arena := by
  cases effect with
  | still arena owned =>
    refine ⟨_, .opened rfl, ?_⟩
    rw [arena]
    exact fun _ _ live => ⟨live, rfl⟩
  | assign place name scope rest value waiting given arena owned =>
    refine ⟨scope, ?_, arena ▸ spares_define scope name value⟩
    rcases workplace_cases (placed.assign waiting) with own | ⟨alone, based⟩
    · exact .own own
    · exact .assign place name rest alone based waiting
  | definition name params body site line scope given arena owned =>
    refine ⟨scope, ?_, arena ▸ (spares_capture scope).trans (spares_define scope name _)⟩
    rcases workplace_cases (placed.definition given) with own | ⟨alone, based⟩
    · exact .own own
    · exact .definition name params body site line alone based given
  | enter closure arguments given arena owned =>
    exact ⟨_, .opened rfl, arena ▸ spares_enter seats.tidy closure.scope _⟩
  | leave scope arena owned =>
    have member : scope ∈ invocations config.stack := owned ▸ List.mem_cons_self
    refine ⟨scope, .own member, ?_⟩
    rw [arena]
    exact spares_release (seats.alive scope member).1
  | pass closure arguments given arena owned =>
    exact ⟨_, .opened rfl, arena ▸ spares_pass seats.tidy closure.scope _⟩

end Config

/-- The arena has room for the invocations that own these scopes, all of them at home. -/
structure Arena.Hosts (arena : Arena) (foreign : Set ScopeId) (base : Option ScopeId) (owned : List ScopeId) : Prop
    extends arena.Seats base owned where
  closed : arena.Closed foreign
  native : ∀ id, id ∈ owned ∨ base = some id → id ∉ foreign

theorem Arena.Hosts.home {arena : Arena} {foreign : Set ScopeId} {base : Option ScopeId} {owned : List ScopeId}
    (hosts : arena.Hosts foreign base owned) {id : ScopeId} (works : owned.head?.or base = some id) :
    arena.Home foreign id := by
  refine ⟨hosts.live works, hosts.native id ?_⟩
  cases owned with
  | nil => exact Or.inr works
  | cons first rest =>
    cases works
    exact Or.inl List.mem_cons_self

structure Config.Sound (foreign : Set ScopeId) (base : Option ScopeId) (config : Config) : Prop where
  hosts : config.session.arena.Hosts foreign base (invocations config.stack)
  safe : ∀ value ∈ config.values, config.session.arena.Safe foreign value
  placed : config.Placed base

namespace Config.Sound

variable {foreign : Set ScopeId} {base : Option ScopeId} {config next : Config} {regime : Regime}

theorem control_home (sound : config.Sound foreign base) {scope : ScopeId}
    (given : config.control.scope? = some scope) : config.session.arena.Home foreign scope :=
  sound.hosts.home (sound.placed.1 scope given)

theorem frame_home (sound : config.Sound foreign base) {frame : Frame} (member : frame ∈ config.stack) {scope : ScopeId}
    (given : frame.scope? = some scope ∨ frame.own? = some scope) : config.session.arena.Home foreign scope := by
  have works : scope ∈ invocations config.stack ∨ base = some scope := by
    rcases given with goesOn | own
    · exact StackPlaced.scope_owned sound.placed.2 member goesOn
    · exact Or.inl (List.mem_filterMap.mpr ⟨frame, member, own⟩)
  refine ⟨?_, sound.hosts.native scope works⟩
  rcases works with owned | based
  · exact (sound.hosts.alive scope owned).1
  · exact (sound.hosts.based scope based).1

theorem origin_safe (sound : config.Sound foreign base) {value : Value} (origin : Origin config value) :
    config.session.arena.Safe foreign value := by
  cases origin with
  | held member => exact sound.safe value member
  | plain none => exact safe_of_handle? none
  | bound name line scope given found =>
    exact sound.hosts.closed.lookup_safe (sound.control_home (by rw [given]; rfl)) found

/-- What a step needs to know of a closure that it enters. -/
theorem entering (sound : config.Sound foreign base) {closure : Closure} {arguments : List Value}
    (given : config.control = .invoke (.closure closure) arguments) :
    (config.session.arena.Home foreign closure.scope ∧ config.session.arena.Lasting closure.scope) ∧
      ∀ entry ∈ closure.params.zip arguments, config.session.arena.Safe foreign entry.2 := by
  have held : ∀ value ∈ Value.procedure (.closure closure) :: arguments, value ∈ config.values := by
    intro value member
    unfold Config.values
    rw [given]
    exact List.mem_append_left _ member
  refine ⟨sound.safe _ (held _ List.mem_cons_self) closure.scope rfl, ?_⟩
  rintro ⟨param, value⟩ member
  exact sound.safe value (held value (List.mem_cons_of_mem _ (List.of_mem_zip member).2))

theorem entered (sound : config.Sound foreign base) {closure : Closure} {arguments : List Value}
    (given : config.control = .invoke (.closure closure) arguments) :
    ((config.session.arena.child closure.scope).2.defineAll config.session.arena.vacant
      (closure.params.zip arguments)).Closed foreign := by
  obtain ⟨⟨home, lasting⟩, safe⟩ := sound.entering given
  refine (sound.hosts.closed.child sound.hosts.tidy home lasting).defineAll _ _ ?_
  intro entry member
  exact (safe entry member).keep (keeps_child sound.hosts.tidy closure.scope)

theorem entered_home (sound : config.Sound foreign base) (closure : Closure) (bindings : List (String × Value)) :
    ((config.session.arena.child closure.scope).2.defineAll config.session.arena.vacant bindings).Home foreign
      config.session.arena.vacant := by
  obtain ⟨live, native⟩ := sound.hosts.closed.child_home sound.hosts.tidy closure.scope
  exact ⟨(live_defineAll_iff ..).mpr live, native⟩

theorem closed_step (sound : config.Sound foreign base) (effect : Effect config next) :
    next.session.arena.Closed foreign := by
  cases effect with
  | still arena owned =>
    rw [arena]
    exact sound.hosts.closed
  | assign place name scope rest value waiting given arena owned =>
    rw [arena]
    have held : value ∈ config.values := by
      unfold Config.values
      rw [given]
      exact List.mem_append_left _ List.mem_cons_self
    exact sound.hosts.closed.define scope name (sound.safe value held)
  | definition name params body site line scope given arena owned =>
    rw [arena]
    have home := sound.hosts.home (sound.placed.definition given)
    refine (sound.hosts.closed.capture scope).define scope name ?_
    rintro id ⟨⟩
    exact ⟨⟨(live_capture_iff ..).mpr home.1, home.2⟩, Or.inr (captured_capture_self home.1)⟩
  | enter closure arguments given arena owned =>
    rw [arena]
    exact sound.entered given
  | leave scope arena owned =>
    rw [arena]
    have member : scope ∈ invocations config.stack := owned ▸ List.mem_cons_self
    exact sound.hosts.closed.release ⟨(sound.hosts.alive scope member).1, sound.hosts.native scope (Or.inl member)⟩
  | pass closure arguments given arena owned =>
    rw [arena]
    exact (sound.entered given).release (sound.entered_home closure _)

theorem native_step (sound : config.Sound foreign base) (effect : Effect config next) :
    ∀ id, id ∈ invocations next.stack ∨ base = some id → id ∉ foreign := by
  cases effect with
  | still _ owned | assign _ _ _ _ _ _ _ _ owned | definition _ _ _ _ _ _ _ _ owned | pass _ _ _ _ owned =>
    rw [owned]
    exact sound.hosts.native
  | enter closure arguments given arena owned =>
    rw [owned]
    rintro id (member | based)
    · rcases List.mem_cons.mp member with rfl | older
      · exact sound.hosts.closed.vacant_native
      · exact sound.hosts.native id (Or.inl older)
    · exact sound.hosts.native id (Or.inr based)
  | leave scope arena owned =>
    intro id given
    refine sound.hosts.native id (given.imp_left ?_)
    intro member
    rw [owned]
    exact List.mem_cons_of_mem _ member

theorem keeps_step (sound : config.Sound foreign base) (effect : Effect config next) :
    Keeps foreign config.session.arena next.session.arena := by
  cases effect with
  | still arena owned =>
    rw [arena]
    exact fun id home lasting => ⟨home, lasting⟩
  | assign place name scope rest value waiting given arena owned =>
    rw [arena]
    exact keeps_define scope name value
  | definition name params body site line scope given arena owned =>
    rw [arena]
    exact (keeps_capture scope).trans (keeps_define scope name _)
  | enter closure arguments given arena owned =>
    rw [arena]
    exact (keeps_child sound.hosts.tidy closure.scope).trans (keeps_defineAll _ _)
  | leave scope arena owned =>
    rw [arena]
    exact keeps_release (sound.hosts.alive scope (owned ▸ List.mem_cons_self)).1
  | pass closure arguments given arena owned =>
    rw [arena]
    exact ((keeps_child sound.hosts.tidy closure.scope).trans (keeps_defineAll _ _)).trans
      (keeps_release (sound.entered_home closure _).1)

theorem step (proper : regime.Proper) (sound : config.Sound foreign base)
    (stepped : config.stepUnder regime = .running next) : next.Sound foreign base := by
  have effect := Effect.step proper stepped
  have seats := seats_step sound.hosts.toSeats sound.placed effect
  refine ⟨⟨seats, sound.closed_step effect, sound.native_step effect⟩, ?_, Placed.step sound.placed stepped⟩
  intro value member
  exact (sound.origin_safe (Origin.step proper stepped member)).keep (sound.keeps_step effect)

end Config.Sound
end Parlance
