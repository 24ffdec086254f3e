import Parlance.Proofs.Arena.Mirror
import Parlance.Proofs.Machine.Sound

/-! Two evaluations in lockstep. They hold the same things up to a renaming of scopes, and the second may keep scopes
that the first gives back. Each step extends the renaming at most by the scope that it opens, so in the end the outcomes
differ by a renaming only. -/
namespace Parlance

open Arena

structure Session.Mirrors (related : Streams → Streams → Prop) (move : Equiv.Perm ScopeId) (foreign : Set ScopeId)
    (first second : Session) : Prop where
  arena : Arena.Mirrors move foreign first.arena second.arena
  streams : related first.streams second.streams
  sites : second.sites = first.sites

structure Config.Mirrors (related : Streams → Streams → Prop) (move : Equiv.Perm ScopeId) (foreign : Set ScopeId)
    (first second : Config) : Prop where
  session : first.session.Mirrors related move foreign second.session
  control : second.control = first.control.rename move
  stack : second.stack = first.stack.map (Frame.rename move)

/-- The second regime may keep scopes that the first gives back; its builtins answer alike. -/
structure Regime.Matches (related : Streams → Streams → Prop) (first second : Regime) : Prop where
  proper : first.Proper
  tame : first.Tame
  tameSecond : second.Tame
  close : ∀ session scope, (second.close session scope).arena = session.arena ∨
    (second.close session scope).arena = session.arena.release scope
  act : ∀ (move : Equiv.Perm ScopeId) (one other : Session) (action : Action) (arguments : List Value),
    related one.streams other.streams →
      (second.act other action (arguments.map (Value.rename move))).1 =
        renameAnswer move (first.act one action arguments).1 ∧
      related (first.act one action arguments).2.streams
        (second.act other action (arguments.map (Value.rename move))).2.streams

variable {related : Streams → Streams → Prop} {move : Equiv.Perm ScopeId} {foreign : Set ScopeId}
  {base : Option ScopeId} {regime other : Regime}

/-! ### Sessions -/

namespace Session.Mirrors

variable {first second : Session}

theorem note (mirrors : first.Mirrors related move foreign second) (event alike : Event) :
    (first.note event).Mirrors related move foreign (second.note alike) :=
  ⟨mirrors.arena, mirrors.streams, mirrors.sites⟩

theorem define (mirrors : first.Mirrors related move foreign second) {scope : ScopeId}
    (home : first.arena.Home foreign scope) (name : String) (value : Value) :
    (first.define scope name value).Mirrors related move foreign
      (second.define (move scope) name (value.rename move)) :=
  ⟨mirrors.arena.define home name value, mirrors.streams, mirrors.sites⟩

theorem capture (mirrors : first.Mirrors related move foreign second) {scope : ScopeId}
    (home : first.arena.Home foreign scope) :
    (first.capture scope).Mirrors related move foreign (second.capture (move scope)) :=
  ⟨mirrors.arena.capture home, mirrors.streams, mirrors.sites⟩

theorem close (matched : regime.Matches related other) (mirrors : first.Mirrors related move foreign second)
    {scope : ScopeId} (home : first.arena.Home foreign scope) :
    (regime.close first scope).Mirrors related move foreign (other.close second (move scope)) := by
  obtain ⟨streams, sites⟩ := matched.tame.close first scope
  obtain ⟨streams', sites'⟩ := matched.tameSecond.close second (move scope)
  refine ⟨?_, by rw [streams, streams']; exact mirrors.streams, by rw [sites, sites', mirrors.sites]⟩
  rw [matched.proper.close]
  rcases matched.close second (move scope) with kept | released
  · rw [kept]
    exact mirrors.arena.release home
  · rw [released]
    exact mirrors.arena.release_both home

theorem act (matched : regime.Matches related other) (mirrors : first.Mirrors related move foreign second)
    (action : Action) (arguments : List Value) :
    (other.act second action (arguments.map (Value.rename move))).1 =
        renameAnswer move (regime.act first action arguments).1 ∧
      (regime.act first action arguments).2.Mirrors related move foreign
        (other.act second action (arguments.map (Value.rename move))).2 := by
  obtain ⟨arena, sites⟩ := matched.tame.act first action arguments
  obtain ⟨arena', sites'⟩ := matched.tameSecond.act second action (arguments.map (Value.rename move))
  obtain ⟨answer, streams⟩ := matched.act move first second action arguments mirrors.streams
  refine ⟨answer, ?_, streams, ?_⟩
  · rw [arena, arena']
    exact mirrors.arena
  · rw [sites, sites', mirrors.sites]

/-- Both open a scope for the arguments; from now on the renaming sends one to the other. -/
theorem enter (mirrors : first.Mirrors related move foreign second) (tidy : first.arena.Tidy)
    (closed : first.arena.Closed foreign) {parent : ScopeId} (home : first.arena.Home foreign parent)
    {arguments : List Value} (safe : ∀ value ∈ arguments, first.arena.Safe foreign value) (params : List String) :
    ((first.openScope parent).2.defineAll first.arena.vacant (params.zip arguments)).Mirrors related
      (Mirrors.extend move first.arena second.arena) foreign
      ((second.openScope (move parent)).2.defineAll second.arena.vacant
        (params.zip (arguments.map (Value.rename move)))) := by
  have same : arguments.map (Value.rename move) =
      arguments.map (Value.rename (Mirrors.extend move first.arena second.arena)) := by
    refine Value.map_rename_congr ?_
    intro value member id handle
    exact (mirrors.arena.extend_agrees id (safe value member id handle).1).symm
  rw [defineAll_eq, defineAll_eq, same]
  refine ⟨?_, mirrors.streams, mirrors.sites⟩
  rw [← Mirrors.extend_vacant move first.arena second.arena]
  exact (mirrors.arena.child tidy closed home).defineAll (closed.child_home tidy parent) params arguments

end Session.Mirrors

/-! ### Steps -/

namespace Config

/-- What is held leads to scopes at home, so renamings that agree there treat it alike. -/
theorem Sound.rename_stack {config : Config} (sound : config.Sound foreign base) {next : Equiv.Perm ScopeId}
    (agrees : config.session.arena.Agrees foreign move next) :
    config.stack.map (Frame.rename next) = config.stack.map (Frame.rename move) := by
  refine List.map_congr_left ?_
  intro frame member
  refine Frame.rename_congr ?_ ?_ ?_
  · exact fun scope given => agrees scope (sound.frame_home member (Or.inl given))
  · exact fun scope given => agrees scope (sound.frame_home member (Or.inr given))
  · intro value held id handle
    refine agrees id (sound.safe value ?_ id handle).1
    exact List.mem_append_right _ (List.mem_flatMap.mpr ⟨frame, member, held⟩)

namespace Mirrors

variable {session twin : Session}

theorem eval (mirrors : session.Mirrors related move foreign twin) (closed : session.arena.Closed foreign)
    {scope : ScopeId} (home : session.arena.Home foreign scope) (node : Node) (stack : List Frame) :
    (Config.eval node scope stack session).Mirrors related move foreign
      (Config.eval node (move scope) (stack.map (Frame.rename move)) twin) := by
  cases node with
  | identifier name line =>
    have found : twin.lookup (move scope) name = (session.lookup scope name).map (Value.rename move) :=
      mirrors.arena.lookup closed home name
    simp only [Config.eval, found]
    cases session.lookup scope name <;> exact ⟨mirrors, rfl, rfl⟩
  | literal literal line => exact ⟨mirrors, congrArg Control.value (Value.ofLiteral_rename literal).symm, rfl⟩
  | assignment target value line => cases target <;> exact ⟨mirrors, rfl, rfl⟩
  | definition name params body site line =>
    have captured : (session.capture scope).arena.Home foreign scope := ⟨(live_capture_iff ..).mpr home.1, home.2⟩
    have defined := (mirrors.capture home).define captured name (.procedure (.closure ⟨name, params, body, site, scope⟩))
    exact ⟨defined, rfl, rfl⟩
  | call | conditional | loop | breaks | returns => exact ⟨mirrors, rfl, rfl⟩

theorem call (mirrors : session.Mirrors related move foreign twin) (place : Place) (callee : Value) (done : List Value)
    (rest : List Node) (scope : ScopeId) (stack : List Frame) :
    (Config.call place callee done rest scope stack session).Mirrors related move foreign
      (Config.call place (callee.rename move) (done.map (Value.rename move)) rest (move scope)
        (stack.map (Frame.rename move)) twin) := by
  cases rest with
  | cons argument rest => exact ⟨mirrors, rfl, rfl⟩
  | nil =>
    cases callee with
    | procedure procedure =>
      refine ⟨mirrors, ?_, rfl⟩
      simp only [Config.call, Value.rename, Control.rename, List.map_reverse]
    | nothing | boolean | number | text => exact ⟨mirrors, rfl, rfl⟩

theorem statements (matched : regime.Matches related other) (mirrors : session.Mirrors related move foreign twin)
    {scope : ScopeId} (home : session.arena.Home foreign scope) (name : String) (rest : List Node)
    (stack : List Frame) :
    (Config.statements regime name rest scope stack session).Mirrors related move foreign
      (Config.statements other name rest (move scope) (stack.map (Frame.rename move)) twin) := by
  cases rest with
  | nil => exact ⟨mirrors.close matched home, rfl, rfl⟩
  | cons statement rest => exact ⟨mirrors, rfl, rfl⟩

theorem builtin (matched : regime.Matches related other) (mirrors : session.Mirrors related move foreign twin)
    (b : Builtin) (arguments : List Value) (stack : List Frame) :
    (Config.invoke regime (.builtin b) arguments stack session).Mirrors related move foreign
      (Config.invoke other (.builtin b) (arguments.map (Value.rename move)) (stack.map (Frame.rename move)) twin) := by
  have acted := mirrors.act matched b.action arguments
  simp only [Config.invoke, List.length_map]
  generalize regime.act session b.action arguments = one at acted ⊢
  generalize other.act twin b.action (arguments.map (Value.rename move)) = two at acted ⊢
  obtain ⟨answer, after⟩ := one
  obtain ⟨_, twinAfter⟩ := two
  obtain ⟨rfl, mirrored⟩ := acted
  split
  · cases answer <;> exact ⟨mirrored, rfl, rfl⟩
  · exact ⟨mirrors, rfl, rfl⟩

/-- Only here does the renaming grow. -/
theorem closure (matched : regime.Matches related other) (mirrors : session.Mirrors related move foreign twin)
    {c : Closure} {arguments : List Value} {stack : List Frame}
    (sound : Config.Sound foreign base ⟨.invoke (.closure c) arguments, stack, session⟩) :
    ∃ next, session.arena.Agrees foreign move next ∧
      (Config.invoke regime (.closure c) arguments stack session).Mirrors related next foreign
        (Config.invoke other (.closure (c.rename move)) (arguments.map (Value.rename move))
          (stack.map (Frame.rename move)) twin) := by
  simp only [Config.invoke, Closure.rename, List.length_map]
  by_cases fits : arguments.length = c.params.length
  · have agrees := mirrors.arena.extend_agrees
    refine ⟨Mirrors.extend move session.arena twin.arena, agrees, ?_⟩
    have safe : ∀ value ∈ arguments, session.arena.Safe foreign value :=
      fun value member => sound.safe value (List.mem_append_left _ (List.mem_cons_of_mem _ member))
    have entered := mirrors.enter sound.hosts.tidy sound.hosts.closed (sound.entering rfl).1.1 safe c.params
    have opened := sound.entered_home c (c.params.zip arguments)
    rw [if_pos fits, if_pos fits, Session.openScope_fst, Session.openScope_fst, ← sound.rename_stack agrees,
      ← Mirrors.extend_vacant move session.arena twin.arena]
    rw [← Mirrors.extend_vacant move session.arena twin.arena] at entered
    exact statements matched (entered.note _ _) (by simpa using opened) c.name c.body stack
  · rw [if_neg fits, if_neg fits]
    exact ⟨move, fun _ _ => rfl, mirrors, rfl, rfl⟩

theorem resume (matched : regime.Matches related other) (mirrors : session.Mirrors related move foreign twin)
    {value : Value} {frame : Frame} {stack : List Frame}
    (sound : Config.Sound foreign base ⟨.value value, frame :: stack, session⟩) :
    (Config.resume regime value frame stack session).Mirrors related move foreign
      (Config.resume other (value.rename move) (frame.rename move) (stack.map (Frame.rename move)) twin) := by
  cases frame with
  | next statements scope => cases statements <;> exact ⟨mirrors, rfl, rfl⟩
  | head place arguments scope => exact call mirrors place value [] arguments scope stack
  | argument place callee done rest scope => exact call mirrors place callee (value :: done) rest scope stack
  | assign place name scope =>
    have home := sound.frame_home List.mem_cons_self (Or.inl rfl)
    exact ⟨mirrors.define home name value, rfl, rfl⟩
  | test place thenBlock elseBlock scope =>
    simp only [Config.resume, Frame.rename, Value.isTruthy_rename]
    split <;> exact ⟨mirrors, rfl, rfl⟩
  | loopTest loop iterations scope =>
    simp only [Config.resume, Frame.rename, Value.isTruthy_rename]
    split
    · exact ⟨mirrors, rfl, rfl⟩
    · exact ⟨mirrors.note _ _, rfl, rfl⟩
  | body name place rest scope =>
    exact statements matched mirrors (sound.frame_home List.mem_cons_self (Or.inr rfl)) name rest stack
  | invoking | branch | loopBody | loopElse | give => exact ⟨mirrors, rfl, rfl⟩

theorem unwind (matched : regime.Matches related other) (mirrors : session.Mirrors related move foreign twin)
    {escape : Escape} {frame : Frame} {stack : List Frame}
    (sound : Config.Sound foreign base ⟨.escape escape, frame :: stack, session⟩) :
    (Config.unwind regime escape frame stack session).Mirrors related move foreign
      (Config.unwind other (escape.rename move) (frame.rename move) (stack.map (Frame.rename move)) twin) := by
  have passes (place : Place) (doing : String) : Control.escape ((escape.rename move).passing place doing) =
      (Control.escape (escape.passing place doing)).rename move :=
    congrArg Control.escape (escape.passing_rename place doing).symm
  cases frame with
  | next statements scope => exact ⟨mirrors, rfl, rfl⟩
  | argument place callee done rest scope =>
    simp only [Config.unwind, Frame.rename, List.length_map]
    exact ⟨mirrors, passes .., rfl⟩
  | invoking place procedure =>
    simp only [Config.unwind, Frame.rename, Procedure.describe_rename]
    exact ⟨mirrors, passes .., rfl⟩
  | branch place taken => cases taken <;> exact ⟨mirrors, passes .., rfl⟩
  | loopBody loop iterations scope =>
    cases escape with
    | broke => exact ⟨mirrors.note _ _, rfl, rfl⟩
    | failed | returned => exact ⟨mirrors, rfl, rfl⟩
  | body name place rest scope =>
    have closed := mirrors.close matched (sound.frame_home List.mem_cons_self (Or.inr rfl))
    cases escape <;> exact ⟨closed, rfl, rfl⟩
  | head | assign | test | loopTest | loopElse | give => exact ⟨mirrors, passes .., rfl⟩

/-- Both go on, or both end. -/
theorem step (matched : regime.Matches related other) {config twin : Config} (sound : config.Sound foreign base)
    (mirrors : config.Mirrors related move foreign twin) :
    (∃ after twinAfter next, config.stepUnder regime = .running after ∧ twin.stepUnder other = .running twinAfter ∧
      config.session.arena.Agrees foreign move next ∧ after.Mirrors related next foreign twinAfter) ∨
    ∃ outcome, config.stepUnder regime = .finished outcome config.session ∧
      twin.stepUnder other = .finished (outcome.rename move) twin.session := by
  obtain ⟨control, stack, session⟩ := config
  obtain ⟨_, _, twin⟩ := twin
  obtain ⟨mirrored, rfl, rfl⟩ := mirrors
  have same : session.arena.Agrees foreign move move := fun _ _ => rfl
  cases control with
  | eval node scope =>
    refine Or.inl ⟨_, _, move, rfl, rfl, same, ?_⟩
    exact eval (mirrored.note _ _) sound.hosts.closed (sound.control_home rfl) node stack
  | block statements scope =>
    refine Or.inl ?_
    cases statements <;> exact ⟨_, _, move, rfl, rfl, same, mirrored, rfl, rfl⟩
  | invoke procedure arguments =>
    cases procedure with
    | builtin b => exact Or.inl ⟨_, _, move, rfl, rfl, same, builtin matched mirrored b arguments stack⟩
    | closure c =>
      obtain ⟨next, agrees, entered⟩ := closure matched mirrored sound
      exact Or.inl ⟨_, _, next, rfl, rfl, agrees, entered⟩
  | value value =>
    cases stack with
    | nil => exact Or.inr ⟨.ok value, rfl, rfl⟩
    | cons frame stack => exact Or.inl ⟨_, _, move, rfl, rfl, same, resume matched mirrored sound⟩
  | escape escape =>
    cases stack with
    | nil => exact Or.inr ⟨.error escape, rfl, rfl⟩
    | cons frame stack => exact Or.inl ⟨_, _, move, rfl, rfl, same, unwind matched mirrored sound⟩

/-- The two runs take the same number of steps. Where scopes last, the renaming stays as it was. -/
theorem run (matched : regime.Matches related other) (fuel : Nat) {config twin : Config}
    (sound : config.Sound foreign base) (mirrors : config.Mirrors related move foreign twin) :
    config.runUnder regime fuel = none ∧ twin.runUnder other fuel = none ∨
    ∃ outcome session twinSession, ∃ next : Equiv.Perm ScopeId, config.runUnder regime fuel = some (outcome, session) ∧
      twin.runUnder other fuel = some (outcome.rename next, twinSession) ∧
      session.Mirrors related next foreign twinSession ∧
      ∀ id, config.session.arena.Home foreign id → config.session.arena.Lasting id → next id = move id := by
  induction fuel generalizing config twin move with
  | zero => exact Or.inl ⟨rfl, rfl⟩
  | succ fuel ih =>
    simp only [runUnder]
    rcases mirrors.step matched sound with
      ⟨after, twinAfter, next, goes, twinGoes, agrees, mirrored⟩ | ⟨outcome, ends, twinEnds⟩
    · rw [goes, twinGoes]
      refine (ih (sound.step matched.proper goes) mirrored).imp_right ?_
      rintro ⟨outcome, session, twinSession, final, ran, twinRan, mirrored, kept⟩
      refine ⟨outcome, session, twinSession, final, ran, twinRan, mirrored, ?_⟩
      intro id home lasting
      obtain ⟨stillHome, stillLasting⟩ := sound.keeps_step (Effect.step matched.proper goes) id home lasting
      rw [kept id stillHome stillLasting, agrees id home]
    · rw [ends, twinEnds]
      exact Or.inr ⟨outcome, _, _, move, rfl, rfl, mirrors.session, fun _ _ _ => rfl⟩

end Mirrors
end Config
end Parlance
