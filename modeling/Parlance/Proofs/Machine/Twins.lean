import Parlance.Proofs.Machine.Sound

/-! Two evaluations that differ in foreign scopes only. Their arenas have the same slots and the same free list, and every
scope that is not foreign is the same in both; so they hold the same handles, and step by step they do the same. -/
namespace Parlance

open Arena

namespace Arena

structure Twins (foreign : Set ScopeId) (first second : Arena) : Prop where
  free : second.free = first.free
  size : second.slots.size = first.slots.size
  scope : ∀ id, id ∉ foreign → second.get? id = first.get? id

namespace Twins

variable {foreign : Set ScopeId} {first second : Arena}

theorem live_iff (twins : Twins foreign first second) (id : ScopeId) : second.Live id ↔ first.Live id := by
  unfold Live
  rw [twins.free, twins.size]

theorem vacant (twins : Twins foreign first second) : second.vacant = first.vacant := by
  unfold Arena.vacant
  rw [twins.free, twins.size]

/-- Foreign scopes are alive, so the free slots are the same. -/
theorem tidy (twins : Twins foreign first second) (tidy : first.Tidy) (kept : ∀ id ∈ foreign, first.Live id) :
    second.Tidy where
  rooted := (twins.live_iff root).mpr tidy.rooted
  distinct := twins.free ▸ tidy.distinct
  inside slot free := twins.size ▸ tidy.inside slot (twins.free ▸ free)
  emptied slot free := by
    rw [twins.free] at free
    have native : (⟨slot⟩ : ScopeId) ∉ foreign := fun outside => (kept _ outside).2 free
    exact (twins.scope ⟨slot⟩ native).trans (tidy.emptied slot free)

/-- The same change to a scope on either side. -/
theorem amend (twins : Twins foreign first second) {left right : Arena} {change : Scope → Scope} {id : ScopeId}
    (free : right.free = second.free ∧ left.free = first.free)
    (size : right.slots.size = second.slots.size ∧ left.slots.size = first.slots.size)
    (leftScope : ∀ other, left.get? other = if id = other then (first.get? other).map change else first.get? other)
    (rightScope : ∀ other, right.get? other = if id = other then (second.get? other).map change else second.get? other) :
    Twins foreign left right where
  free := by rw [free.1, free.2, twins.free]
  size := by rw [size.1, size.2, twins.size]
  scope other native := by rw [leftScope, rightScope, twins.scope other native]

theorem define (twins : Twins foreign first second) (id : ScopeId) (name : String) (value : Value) :
    Twins foreign (first.define id name value) (second.define id name value) :=
  twins.amend ⟨rfl, rfl⟩ ⟨Array.size_modify .., Array.size_modify ..⟩ (get?_define first id · name value)
    (get?_define second id · name value)

theorem defineAll (twins : Twins foreign first second) (id : ScopeId) (bindings : List (String × Value)) :
    Twins foreign (first.defineAll id bindings) (second.defineAll id bindings) := by
  induction bindings generalizing first second with
  | nil => exact twins
  | cons entry rest ih => exact ih (twins.define id entry.1 entry.2)

theorem capture (twins : Twins foreign first second) (id : ScopeId) :
    Twins foreign (first.capture id) (second.capture id) :=
  twins.amend ⟨rfl, rfl⟩ ⟨Array.size_modify .., Array.size_modify ..⟩ (get?_capture first id) (get?_capture second id)

theorem child (twins : Twins foreign first second) (tidy : first.Tidy) (kept : ∀ id ∈ foreign, first.Live id)
    (parent : ScopeId) : Twins foreign (first.child parent).2 (second.child parent).2 := by
  refine ⟨?_, ?_, ?_⟩
  · simp only [Arena.child, twins.free]
    cases first.free <;> rfl
  · simp only [Arena.child, twins.free]
    cases first.free with
    | nil => simp [twins.size]
    | cons slot rest => simp [twins.size]
  · intro id native
    rw [get?_child tidy, get?_child (twins.tidy tidy kept), twins.vacant, twins.scope id native]

theorem release (twins : Twins foreign first second) {id : ScopeId} (home : first.Home foreign id) :
    Twins foreign (first.release id) (second.release id) := by
  have same : second.isReleasable id = first.isReleasable id := by
    unfold isReleasable
    rw [twins.scope id home.2]
  unfold Arena.release
  rw [same]
  split
  · refine ⟨?_, ?_, ?_⟩
    · rw [twins.free]
    · simp only [Array.size_setIfInBounds, twins.size]
    · intro other native
      have before := twins.scope other native
      unfold get? at before ⊢
      simp only [Array.getElem?_setIfInBounds, before, twins.size]
  · exact twins

theorem chain (twins : Twins foreign first second) (closed : first.Closed foreign) {id : ScopeId} {path : List ScopeId}
    (chain : first.Chain id path) (home : first.Home foreign id) : second.Chain id path := by
  refine chain.transfer fun passed onPath => ?_
  rw [twins.scope passed (closed.chain_home chain home passed onPath).1.2]

/-- From a scope at home the same is found, since the way outward stays at home. -/
theorem lookup (twins : Twins foreign first second) (closed : first.Closed foreign) {id : ScopeId}
    (home : first.Home foreign id) (name : String) : second.lookup id name = first.lookup id name := by
  obtain ⟨path, chain⟩ := closed.chain id home
  have inside := fun other member => (closed.chain_home chain home other member).1.2
  rw [lookup_chain chain, lookup_chain (twins.chain closed chain home)]
  clear chain
  induction path with
  | nil => rfl
  | cons head rest ih =>
    obtain ⟨here, further⟩ := List.forall_mem_cons.mp inside
    have same : second.binding? name head = first.binding? name head := by
      unfold binding?
      rw [twins.scope head here]
    rw [List.findSome?_cons, List.findSome?_cons, same, ih further]

end Twins
end Arena

structure Session.Twins (foreign : Set ScopeId) (first second : Session) : Prop where
  arena : Arena.Twins foreign first.arena second.arena
  streams : second.streams = first.streams

structure Config.Twins (foreign : Set ScopeId) (first second : Config) : Prop where
  session : first.session.Twins foreign second.session
  control : second.control = first.control
  stack : second.stack = first.stack

variable {foreign : Set ScopeId} {base : Option ScopeId}

namespace Session.Twins

variable {first second : Session}

theorem note (twins : first.Twins foreign second) (event alike : Event) :
    (first.note event).Twins foreign (second.note alike) :=
  ⟨twins.arena, twins.streams⟩

theorem define (twins : first.Twins foreign second) (scope : ScopeId) (name : String) (value : Value) :
    (first.define scope name value).Twins foreign (second.define scope name value) :=
  ⟨twins.arena.define scope name value, twins.streams⟩

theorem close (twins : first.Twins foreign second) {scope : ScopeId} (home : first.arena.Home foreign scope) :
    (first.closeScope scope).Twins foreign (second.closeScope scope) := by
  refine ⟨?_, ?_⟩
  · rw [arena_closeScope, arena_closeScope]
    exact twins.arena.release home
  · have untouched (session : Session) : (session.closeScope scope).streams = session.streams := by
      unfold closeScope
      split <;> rfl
    rw [untouched, untouched, twins.streams]

theorem act (twins : first.Twins foreign second) (action : Action) (arguments : List Value) :
    (second.act action arguments).1 = (first.act action arguments).1 ∧
      (first.act action arguments).2.Twins foreign (second.act action arguments).2 := by
  obtain ⟨arena, streams, log, sites⟩ := first
  obtain ⟨_, _, _, _⟩ := second
  obtain ⟨arenas, same⟩ := twins
  cases same
  exact ⟨rfl, arenas, rfl⟩

theorem enter (twins : first.Twins foreign second) (tidy : first.arena.Tidy) (closed : first.arena.Closed foreign)
    (parent : ScopeId) (bindings : List (String × Value)) :
    ((first.openScope parent).2.defineAll first.arena.vacant bindings).Twins foreign
      ((second.openScope parent).2.defineAll first.arena.vacant bindings) := by
  rw [defineAll_eq, defineAll_eq]
  exact ⟨(twins.arena.child tidy closed.kept parent).defineAll _ bindings, twins.streams⟩

end Session.Twins

/-! ### Steps -/

namespace Config.Twins

variable {session twin : Session}

theorem eval (twins : session.Twins foreign twin) (closed : session.arena.Closed foreign) {scope : ScopeId}
    (home : session.arena.Home foreign scope) (node : Node) (stack : List Frame) :
    (Config.eval node scope stack session).Twins foreign (Config.eval node scope stack twin) := by
  cases node with
  | identifier name line =>
    have found : twin.lookup scope name = session.lookup scope name := twins.arena.lookup closed home name
    simp only [Config.eval, found]
    cases session.lookup scope name <;> exact ⟨twins, rfl, rfl⟩
  | assignment target value line => cases target <;> exact ⟨twins, rfl, rfl⟩
  | definition name params body site line =>
    have captured : (session.capture scope).Twins foreign (twin.capture scope) :=
      ⟨twins.arena.capture scope, twins.streams⟩
    exact ⟨captured.define scope name _, rfl, rfl⟩
  | literal | call | conditional | loop | breaks | returns => exact ⟨twins, rfl, rfl⟩

theorem call (twins : session.Twins foreign twin) (place : Place) (callee : Value) (done : List Value)
    (rest : List Node) (scope : ScopeId) (stack : List Frame) :
    (Config.call place callee done rest scope stack session).Twins foreign
      (Config.call place callee done rest scope stack twin) := by
  cases rest with
  | cons argument rest => exact ⟨twins, rfl, rfl⟩
  | nil => cases callee <;> exact ⟨twins, rfl, rfl⟩

theorem statements (twins : session.Twins foreign twin) {scope : ScopeId} (home : session.arena.Home foreign scope)
    (name : String) (rest : List Node) (stack : List Frame) :
    (Config.statements .usual name rest scope stack session).Twins foreign
      (Config.statements .usual name rest scope stack twin) := by
  cases rest with
  | nil => exact ⟨twins.close home, rfl, rfl⟩
  | cons statement rest => exact ⟨twins, rfl, rfl⟩

theorem builtin (twins : session.Twins foreign twin) (b : Builtin) (arguments : List Value) (stack : List Frame) :
    (Config.invoke .usual (.builtin b) arguments stack session).Twins foreign
      (Config.invoke .usual (.builtin b) arguments stack twin) := by
  have acted := twins.act b.action arguments
  simp only [Config.invoke, Regime.usual]
  generalize session.act b.action arguments = one at acted ⊢
  generalize twin.act b.action arguments = two at acted ⊢
  obtain ⟨_, after⟩ := one
  obtain ⟨answer, twinAfter⟩ := two
  obtain ⟨rfl, alike⟩ := acted
  split
  · cases answer <;> exact ⟨alike, rfl, rfl⟩
  · exact ⟨twins, rfl, rfl⟩

/-- Both open the scope that comes next, and it is the same one. -/
theorem closure (twins : session.Twins foreign twin) {c : Closure} {arguments : List Value} {stack : List Frame}
    (sound : Config.Sound foreign base ⟨.invoke (.closure c) arguments, stack, session⟩) :
    (Config.invoke .usual (.closure c) arguments stack session).Twins foreign
      (Config.invoke .usual (.closure c) arguments stack twin) := by
  simp only [Config.invoke]
  split
  · rw [Session.openScope_fst, Session.openScope_fst, twins.arena.vacant]
    have entered := twins.enter sound.hosts.tidy sound.hosts.closed c.scope (c.params.zip arguments)
    have opened := sound.entered_home c (c.params.zip arguments)
    exact statements (entered.note _ _) (by simpa using opened) c.name c.body stack
  · exact ⟨twins, rfl, rfl⟩

theorem resume (twins : session.Twins foreign twin) {value : Value} {frame : Frame} {stack : List Frame}
    (sound : Config.Sound foreign base ⟨.value value, frame :: stack, session⟩) :
    (Config.resume .usual value frame stack session).Twins foreign (Config.resume .usual value frame stack twin) := by
  cases frame with
  | next statements scope => cases statements <;> exact ⟨twins, rfl, rfl⟩
  | head place arguments scope => exact call twins place value [] arguments scope stack
  | argument place callee done rest scope => exact call twins place callee (value :: done) rest scope stack
  | assign place name scope => exact ⟨twins.define scope name value, rfl, rfl⟩
  | test place thenBlock elseBlock scope =>
    simp only [Config.resume]
    split <;> exact ⟨twins, rfl, rfl⟩
  | loopTest loop iterations scope =>
    simp only [Config.resume]
    split
    · exact ⟨twins, rfl, rfl⟩
    · exact ⟨twins.note _ _, rfl, rfl⟩
  | body name place rest scope =>
    exact statements twins (sound.frame_home List.mem_cons_self (Or.inr rfl)) name rest stack
  | invoking | branch | loopBody | loopElse | give => exact ⟨twins, rfl, rfl⟩

theorem unwind (twins : session.Twins foreign twin) {escape : Escape} {frame : Frame} {stack : List Frame}
    (sound : Config.Sound foreign base ⟨.escape escape, frame :: stack, session⟩) :
    (Config.unwind .usual escape frame stack session).Twins foreign (Config.unwind .usual escape frame stack twin) := by
  cases frame with
  | branch place taken => cases taken <;> exact ⟨twins, rfl, rfl⟩
  | loopBody loop iterations scope =>
    cases escape with
    | broke => exact ⟨twins.note _ _, rfl, rfl⟩
    | failed | returned => exact ⟨twins, rfl, rfl⟩
  | body name place rest scope =>
    have closed := twins.close (sound.frame_home List.mem_cons_self (Or.inr rfl))
    cases escape <;> exact ⟨closed, rfl, rfl⟩
  | next | head | argument | invoking | assign | test | loopTest | loopElse | give => exact ⟨twins, rfl, rfl⟩

/-- Both go on, or both end. -/
theorem step {config twin : Config} (sound : config.Sound foreign base) (twins : config.Twins foreign twin) :
    (∃ after twinAfter, config.stepUnder .usual = .running after ∧ twin.stepUnder .usual = .running twinAfter ∧
      after.Twins foreign twinAfter) ∨
    ∃ outcome, config.stepUnder .usual = .finished outcome config.session ∧
      twin.stepUnder .usual = .finished outcome twin.session := by
  obtain ⟨_, _, session⟩ := config
  obtain ⟨control, stack, twin⟩ := twin
  obtain ⟨sessions, rfl, rfl⟩ := twins
  cases control with
  | eval node scope =>
    refine Or.inl ⟨_, _, rfl, rfl, ?_⟩
    exact eval (sessions.note _ _) sound.hosts.closed (sound.control_home rfl) node stack
  | block statements scope => cases statements <;> exact Or.inl ⟨_, _, rfl, rfl, sessions, rfl, rfl⟩
  | invoke procedure arguments =>
    cases procedure with
    | builtin b => exact Or.inl ⟨_, _, rfl, rfl, builtin sessions b arguments stack⟩
    | closure c => exact Or.inl ⟨_, _, rfl, rfl, closure sessions sound⟩
  | value value =>
    cases stack with
    | nil => exact Or.inr ⟨.ok value, rfl, rfl⟩
    | cons frame stack => exact Or.inl ⟨_, _, rfl, rfl, resume sessions sound⟩
  | escape escape =>
    cases stack with
    | nil => exact Or.inr ⟨.error escape, rfl, rfl⟩
    | cons frame stack => exact Or.inl ⟨_, _, rfl, rfl, unwind sessions sound⟩

/-- The two runs take the same number of steps to the same outcome. -/
theorem run (fuel : Nat) {config twin : Config} (sound : config.Sound foreign base) (twins : config.Twins foreign twin) :
    config.run fuel = none ∧ twin.run fuel = none ∨
    ∃ outcome after twinAfter, config.run fuel = some (outcome, after) ∧ twin.run fuel = some (outcome, twinAfter) ∧
      after.Twins foreign twinAfter := by
  induction fuel generalizing config twin with
  | zero => exact Or.inl ⟨rfl, rfl⟩
  | succ fuel ih =>
    simp only [Config.run, runUnder] at ih ⊢
    rcases twins.step sound with ⟨after, twinAfter, goes, twinGoes, twins⟩ | ⟨outcome, ends, twinEnds⟩
    · rw [goes, twinGoes]
      exact ih (sound.step Regime.usual_proper goes) twins
    · rw [ends, twinEnds]
      exact Or.inr ⟨outcome, _, _, rfl, rfl, twins.session⟩

end Config.Twins
end Parlance
