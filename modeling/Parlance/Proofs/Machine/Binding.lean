import Parlance.Proofs.Machine.Sound

/-! Where bindings come from. After a step a live scope binds what it bound before, and at most the name that the step
assigns or defines there; a new scope binds parameters. -/
namespace Parlance

namespace Arena

/-- The entry is one of the scope's. -/
def Binds (arena : Arena) (id : ScopeId) (entry : String × Value) : Prop :=
  ∃ scope, arena.get? id = some scope ∧ entry ∈ scope.bindings

variable {arena : Arena} {id other : ScopeId} {entry : String × Value}

theorem Binds.of_define {name : String} {value : Value} (binds : (arena.define other name value).Binds id entry) :
    id = other ∧ entry = (name, value) ∨ arena.Binds id entry := by
  obtain ⟨scope, found, member⟩ := binds
  rw [get?_define] at found
  split at found
  · rename_i same
    obtain ⟨old, here, rfl⟩ := Option.map_eq_some_iff.mp found
    rcases Bindings.mem_insert member with new | older
    · exact Or.inl ⟨same.symm, new⟩
    · exact Or.inr ⟨old, here, older⟩
  · exact Or.inr ⟨scope, found, member⟩

theorem Binds.of_defineAll {bindings : List (String × Value)} (binds : (arena.defineAll other bindings).Binds id entry) :
    id = other ∧ entry ∈ bindings ∨ arena.Binds id entry := by
  induction bindings generalizing arena with
  | nil => exact Or.inr binds
  | cons first rest ih =>
    have later : ((arena.define other first.1 first.2).defineAll other rest).Binds id entry := binds
    rcases ih later with ⟨same, member⟩ | before
    · exact Or.inl ⟨same, List.mem_cons_of_mem _ member⟩
    · rcases before.of_define with ⟨same, new⟩ | older
      · exact Or.inl ⟨same, new ▸ List.mem_cons_self⟩
      · exact Or.inr older

theorem Binds.of_capture (binds : (arena.capture other).Binds id entry) : arena.Binds id entry := by
  obtain ⟨scope, found, member⟩ := binds
  rw [get?_capture] at found
  split at found
  · obtain ⟨old, here, rfl⟩ := Option.map_eq_some_iff.mp found
    exact ⟨old, here, member⟩
  · exact ⟨scope, found, member⟩

theorem Binds.of_child (tidy : arena.Tidy) {parent : ScopeId} (binds : (arena.child parent).2.Binds id entry) :
    id ≠ arena.vacant ∧ arena.Binds id entry := by
  obtain ⟨scope, found, member⟩ := binds
  rw [get?_child tidy] at found
  split at found
  · cases found
    cases member
  · rename_i different
    exact ⟨Ne.symm different, scope, found, member⟩

theorem Binds.of_release (live : arena.Live other) (binds : (arena.release other).Binds id entry) :
    arena.Binds id entry := by
  by_cases lasting : arena.Lasting other
  · rw [release_lasting lasting] at binds
    exact binds
  · obtain ⟨scope, found, member⟩ := binds
    rw [get?_release live lasting] at found
    split at found
    · cases found
      cases member
    · exact ⟨scope, found, member⟩

end Arena

/-- Where an entry of a scope comes from. -/
inductive Config.Bound (config : Config) (id : ScopeId) (entry : String × Value) : Prop
  | kept (live : config.session.arena.Live id) (binds : config.session.arena.Binds id entry)
  | assigned (place : Place) (rest : List Frame) (waiting : config.stack = .assign place entry.1 id :: rest)
      (given : config.control = .value entry.2)
  | defined (params : List String) (body : List Node) (site line : Nat)
      (given : config.control = .eval (.definition entry.1 params body site line) id)
      (made : entry.2 = .procedure (.closure ⟨entry.1, params, body, site, id⟩))
  | passed (closure : Closure) (arguments : List Value) (fresh : id = config.session.arena.vacant)
      (given : config.control = .invoke (.closure closure) arguments) (member : entry ∈ closure.params.zip arguments)

open Arena

theorem Config.bound_step {base : Option ScopeId} {config next : Config}
    (seats : config.session.arena.Seats base (invocations config.stack)) (effect : Effect config next) {id : ScopeId}
    {entry : String × Value} (live : next.session.arena.Live id) (binds : next.session.arena.Binds id entry) :
    config.Bound id entry := by
  have entered : ∀ closure arguments, config.control = .invoke (.closure closure) arguments →
      ((config.session.arena.child closure.scope).2.defineAll config.session.arena.vacant
        (closure.params.zip arguments)).Live id →
      ((config.session.arena.child closure.scope).2.defineAll config.session.arena.vacant
        (closure.params.zip arguments)).Binds id entry → config.Bound id entry := by
    intro closure arguments given alive bound
    rw [live_defineAll_iff, live_child_iff seats.tidy] at alive
    rcases bound.of_defineAll with ⟨fresh, member⟩ | older
    · exact .passed closure arguments fresh given member
    · obtain ⟨different, before⟩ := older.of_child seats.tidy
      exact .kept (alive.resolve_left different) before
  cases effect with
  | still arena owned => exact .kept (arena ▸ live) (arena ▸ binds)
  | assign place name scope rest value waiting given arena owned =>
    rw [arena] at live binds
    rcases binds.of_define with ⟨rfl, rfl⟩ | older
    · exact .assigned place rest waiting given
    · exact .kept ((live_define_iff ..).mp live) older
  | definition name params body site line scope given arena owned =>
    rw [arena] at live binds
    rcases binds.of_define with ⟨rfl, rfl⟩ | older
    · exact .defined params body site line given rfl
    · exact .kept ((live_capture_iff ..).mp ((live_define_iff ..).mp live)) older.of_capture
  | enter closure arguments given arena owned => exact entered closure arguments given (arena ▸ live) (arena ▸ binds)
  | leave scope arena owned =>
    rw [arena] at live binds
    have alive := (seats.alive scope (owned ▸ List.mem_cons_self)).1
    exact .kept (live_of_release live) (binds.of_release alive)
  | pass closure arguments given arena owned =>
    rw [arena] at live binds
    have opened := (seats.child closure.scope).alive _ List.mem_cons_self
    have alive := (live_defineAll_iff _ config.session.arena.vacant _ (closure.params.zip arguments)).mpr opened.1
    exact entered closure arguments given (live_of_release live) (binds.of_release alive)

/-- Whatever the configuration holds or a live scope binds is valid. -/
structure Config.Carries (valid : Value → Prop) (config : Config) : Prop where
  held : ∀ value ∈ config.values, valid value
  bound : ∀ id entry, config.session.arena.Live id → config.session.arena.Binds id entry → valid entry.2

namespace Config.Carries

variable {valid : Value → Prop} {config next : Config}

theorem invoked (carries : config.Carries valid) {procedure : Procedure} {arguments : List Value}
    (given : config.control = .invoke procedure arguments) :
    valid (.procedure procedure) ∧ ∀ value ∈ arguments, valid value := by
  have held : ∀ value ∈ Value.procedure procedure :: arguments, valid value := by
    intro value member
    refine carries.held value ?_
    unfold Config.values
    rw [given]
    exact List.mem_append_left _ member
  exact List.forall_mem_cons.mp held

/-- A step brings no value that was not there, but those that it makes and the procedures that it defines. -/
theorem step_made (made : ∀ value, Made .usual config value → valid value)
    (defined : ∀ name params body site line scope,
      config.control = .eval (.definition name params body site line) scope →
      valid (.procedure (.closure ⟨name, params, body, site, scope⟩)))
    (sound : config.Sound ∅ (some root)) (carries : config.Carries valid)
    (stepped : config.stepUnder .usual = .running next) : next.Carries valid := by
  refine ⟨?_, ?_⟩
  · intro value member
    cases Provenance.step Regime.usual_proper stepped member with
    | held member => exact carries.held value member
    | made given => exact made value given
    | bound name line scope given found =>
      have works := sound.placed.1 scope (by rw [given]; rfl)
      obtain ⟨holder, there, home, here, member⟩ := sound.hosts.closed.lookup_bound (sound.hosts.home works) found
      exact carries.bound holder (name, value) home.1 ⟨there, here, member⟩
  · intro id entry live binds
    cases bound_step sound.hosts.toSeats (Effect.step Regime.usual_proper stepped) live binds with
    | kept live binds => exact carries.bound id entry live binds
    | assigned place rest waiting given =>
      refine carries.held entry.2 ?_
      unfold Config.values
      rw [given]
      exact List.mem_append_left _ List.mem_cons_self
    | defined params body site line given made =>
      rw [made]
      exact defined entry.1 params body site line id given
    | passed closure arguments fresh given member =>
      exact (carries.invoked given).2 entry.2 (List.of_mem_zip member).2

/-- Where plain values are valid, only the procedures that a step defines have to be looked at. -/
theorem step (plain : ∀ value, value.handle? = none → valid value)
    (defined : ∀ name params body site line scope,
      config.control = .eval (.definition name params body site line) scope →
      valid (.procedure (.closure ⟨name, params, body, site, scope⟩)))
    (sound : config.Sound ∅ (some root)) (carries : config.Carries valid)
    (stepped : config.stepUnder .usual = .running next) : next.Carries valid := by
  refine step_made (fun value made => ?_) defined sound carries stepped
  cases made with
  | nothing same => exact plain value (same ▸ rfl)
  | literal literal line scope given same =>
    subst same
    exact plain _ (by cases literal <;> rfl)
  | result builtin arguments given acted =>
    rcases Action.run_result acted with passed | data
    · exact (carries.invoked given).2 value passed
    · exact plain value (Value.handle?_of_isProcedure data)

end Config.Carries
end Parlance
