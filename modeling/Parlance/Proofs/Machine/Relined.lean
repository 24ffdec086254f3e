import Parlance.Proofs.Machine.Image
import Parlance.Proofs.Node.Relined

/-! Evaluation without a look at line numbers. What two evaluations hold may differ in the line numbers of the nodes in
it: then each step of one is matched by the other, and only the trails of failures and the bodies of procedures tell
them apart. -/
namespace Parlance

/-! ### Other line numbers in all that an evaluation holds -/

def Closure.relined (line : Nat → Nat) (closure : Closure) : Closure :=
  { closure with body := Node.relinedAll line closure.body }

def Procedure.relined (line : Nat → Nat) : Procedure → Procedure
  | .builtin b => .builtin b
  | .closure c => .closure (c.relined line)

def Value.relined (line : Nat → Nat) (value : Value) : Value :=
  value.image (Procedure.relined line)

def Place.relined (line : Nat → Nat) (place : Place) : Place :=
  ⟨place.label, line place.line⟩

def Activity.relined (line : Nat → Nat) (activity : Activity) : Activity :=
  ⟨activity.place.relined line, activity.doing⟩

def Failure.relined (line : Nat → Nat) (failure : Failure) : Failure :=
  ⟨failure.cause.image (Procedure.relined line), failure.trail.map (Activity.relined line)⟩

def Escape.relined (line : Nat → Nat) : Escape → Escape
  | .failed failure => .failed (failure.relined line)
  | .broke => .broke
  | .returned value => .returned (value.relined line)

def Outcome.relined (line : Nat → Nat) : Outcome → Outcome
  | .ok value => .ok (value.relined line)
  | .error escape => .error (escape.relined line)

def Loop.relined (line : Nat → Nat) (loop : Loop) : Loop :=
  ⟨loop.condition.relined line, Node.relinedAll line loop.body, Node.relinedAll line loop.otherwise, line loop.line⟩

def Control.relined (line : Nat → Nat) : Control → Control
  | .eval node scope => .eval (node.relined line) scope
  | .block statements scope => .block (Node.relinedAll line statements) scope
  | .invoke procedure arguments => .invoke (procedure.relined line) (arguments.map (Value.relined line))
  | .value result => .value (result.relined line)
  | .escape reason => .escape (reason.relined line)

def Frame.relined (line : Nat → Nat) : Frame → Frame
  | .next statements scope => .next (Node.relinedAll line statements) scope
  | .head call arguments scope => .head (call.relined line) (Node.relinedAll line arguments) scope
  | .argument call callee done rest scope =>
    .argument (call.relined line) (callee.relined line) (done.map (Value.relined line)) (Node.relinedAll line rest) scope
  | .invoking call procedure => .invoking (call.relined line) (procedure.relined line)
  | .assign assignment name scope => .assign (assignment.relined line) name scope
  | .test conditional thenBlock elseBlock scope =>
    .test (conditional.relined line) (Node.relinedAll line thenBlock) (Node.relinedAll line elseBlock) scope
  | .branch conditional taken => .branch (conditional.relined line) taken
  | .loopTest loop iterations scope => .loopTest (loop.relined line) iterations scope
  | .loopBody loop iterations scope => .loopBody (loop.relined line) iterations scope
  | .loopElse loop => .loopElse (loop.relined line)
  | .give returns => .give (returns.relined line)
  | .body name statement rest scope => .body name (statement.relined line) (Node.relinedAll line rest) scope

def Scope.relined (line : Nat → Nat) (scope : Scope) : Scope :=
  { scope with bindings := scope.bindings.image (Procedure.relined line) }

def Arena.relined (line : Nat → Nat) (arena : Arena) : Arena :=
  ⟨arena.slots.map (Scope.relined line), arena.free⟩

variable {line : Nat → Nat}

theorem Procedure.describe_relined (procedure : Procedure) :
    (procedure.relined line).describe = procedure.describe := by
  cases procedure <;> rfl

theorem Value.describe_relined (value : Value) : (value.relined line).describe = value.describe :=
  describe_image Procedure.describe_relined value

theorem Value.isTruthy_relined (value : Value) : (value.relined line).isTruthy = value.isTruthy := by
  cases value <;> rfl

theorem Escape.passing_relined (escape : Escape) (place : Place) (doing : String) :
    (escape.passing place doing).relined line = (escape.relined line).passing (place.relined line) doing := by
  cases escape <;> rfl

/-! ### Scopes -/

namespace Arena

theorem get?_relined (arena : Arena) (id : ScopeId) :
    (arena.relined line).get? id = (arena.get? id).map (Scope.relined line) :=
  Array.getElem?_map

theorem lookup_relined (arena : Arena) (id : ScopeId) (name : String) :
    (arena.relined line).lookup id name = (arena.lookup id name).map (Value.relined line) := by
  have within (depth : Nat) : (arena.relined line).lookupWithin name depth id =
      (arena.lookupWithin name depth id).map (Value.relined line) := by
    induction depth generalizing id with
    | zero => rfl
    | succ depth ih =>
      rw [lookupWithin, lookupWithin, get?_relined]
      cases arena.get? id with
      | none => rfl
      | some scope =>
        simp only [Option.map_some, Scope.relined, Bindings.find?_image]
        cases scope.bindings.find? name with
        | some value => rfl
        | none =>
          cases scope.parent with
          | none => rfl
          | some parent => exact ih parent
  rw [lookup, lookup, within, relined, Array.size_map]

theorem modify_relined (slots : Array Scope) (index : Nat) {change other : Scope → Scope}
    (same : ∀ scope, (change scope).relined line = other (scope.relined line)) :
    (slots.modify index change).map (Scope.relined line) = (slots.map (Scope.relined line)).modify index other := by
  apply Array.ext_getElem?
  intro place
  simp only [Array.getElem?_map, Array.getElem?_modify]
  split
  · rw [Option.map_map, Option.map_map]
    exact congrArg (Option.map · _) (funext same)
  · rfl

theorem set_relined (slots : Array Scope) (index : Nat) (scope : Scope) :
    (slots.setIfInBounds index scope).map (Scope.relined line) =
      (slots.map (Scope.relined line)).setIfInBounds index (scope.relined line) := by
  apply Array.ext_getElem?
  intro place
  simp only [Array.getElem?_map, Array.getElem?_setIfInBounds, Array.size_map]
  split
  · split <;> rfl
  · rfl

theorem define_relined (arena : Arena) (id : ScopeId) (name : String) (value : Value) :
    (arena.define id name value).relined line = (arena.relined line).define id name (value.relined line) := by
  rw [define, relined, modify_relined]
  · rfl
  · intro scope
    rw [Scope.relined, Bindings.insert_image]
    rfl

theorem capture_relined (arena : Arena) (id : ScopeId) :
    (arena.capture id).relined line = (arena.relined line).capture id := by
  rw [capture, relined, modify_relined]
  · rfl
  · exact fun _ => rfl

theorem child_relined (arena : Arena) (parent : ScopeId) :
    (arena.relined line).child parent = ((arena.child parent).1, (arena.child parent).2.relined line) := by
  obtain ⟨slots, free⟩ := arena
  cases free with
  | cons slot free =>
    simp only [child, relined, set_relined]
    rfl
  | nil =>
    simp only [child, relined, Array.map_push, Array.size_map]
    rfl

theorem release_relined (arena : Arena) (id : ScopeId) :
    (arena.release id).relined line = (arena.relined line).release id := by
  have releasable : (arena.relined line).isReleasable id = arena.isReleasable id := by
    rw [isReleasable, isReleasable, get?_relined]
    cases arena.get? id <;> rfl
  unfold release
  rw [releasable]
  split
  · exact congrArg (Arena.mk · _) (set_relined _ _ _)
  · rfl

end Arena

/-! ### Sessions -/

/-- The scopes are those of the other session, with other line numbers; the streams are given. -/
structure Session.Copies (line : Nat → Nat) (streams : Streams) (base copy : Session) : Prop where
  arena : copy.arena = base.arena.relined line
  sites : copy.sites = base.sites
  streams : copy.streams = streams

namespace Session.Copies

variable {streams : Streams} {base copy : Session}

theorem note (copies : base.Copies line streams copy) (event other : Event) :
    (base.note event).Copies line streams (copy.note other) :=
  ⟨copies.arena, copies.sites, copies.streams⟩

theorem define (copies : base.Copies line streams copy) (scope : ScopeId) (name : String) (value : Value) :
    (base.define scope name value).Copies line streams (copy.define scope name (value.relined line)) where
  arena := by
    rw [Session.define, Session.define, copies.arena, Arena.define_relined]
  sites := copies.sites
  streams := copies.streams

theorem defineAll (copies : base.Copies line streams copy) (scope : ScopeId) (bindings : Bindings) :
    (base.defineAll scope bindings).Copies line streams
      (copy.defineAll scope (bindings.image (Procedure.relined line))) := by
  unfold Session.defineAll Bindings.image
  induction bindings generalizing base copy with
  | nil => exact copies
  | cons entry rest ih => exact ih (copies.define scope entry.1 entry.2)

theorem capture (copies : base.Copies line streams copy) (scope : ScopeId) :
    (base.capture scope).Copies line streams (copy.capture scope) where
  arena := by
    rw [Session.capture, Session.capture, copies.arena, Arena.capture_relined]
  sites := copies.sites
  streams := copies.streams

theorem openScope (copies : base.Copies line streams copy) (parent : ScopeId) :
    (copy.openScope parent).1 = (base.openScope parent).1 ∧
      (base.openScope parent).2.Copies line streams (copy.openScope parent).2 := by
  simp only [Session.openScope, copies.arena, Arena.child_relined]
  exact ⟨trivial, rfl, copies.sites, copies.streams⟩

theorem close {regime : Regime} (proper : regime.Proper) (tame : regime.Tame) (copies : base.Copies line streams copy)
    (scope : ScopeId) : (regime.close base scope).Copies line streams (regime.close copy scope) where
  arena := by
    rw [proper.close, proper.close, copies.arena, Arena.release_relined]
  sites := by
    rw [(tame.close base scope).2, (tame.close copy scope).2, copies.sites]
  streams := by
    rw [(tame.close copy scope).1, copies.streams]

end Session.Copies

/-! ### Steps -/

structure Config.Copies (line : Nat → Nat) (streams : Streams) (base copy : Config) : Prop where
  control : copy.control = base.control.relined line
  stack : copy.stack = base.stack.map (Frame.relined line)
  session : base.session.Copies line streams copy.session

inductive Progress.Copies (line : Nat → Nat) (streams : Streams) : Progress → Progress → Prop
  | running {base copy : Config} (copies : base.Copies line streams copy) :
      Copies line streams (.running base) (.running copy)
  | finished (outcome : Outcome) {base copy : Session} (copies : base.Copies line streams copy) :
      Copies line streams (.finished outcome base) (.finished (outcome.relined line) copy)

/-- Whether it is a builtin's turn. -/
def Control.acts : Control → Bool
  | .invoke (.builtin _) _ => true
  | _ => false

namespace Config.Copies

variable {streams : Streams} {base copy : Session} {regime : Regime}

theorem eval (copies : base.Copies line streams copy) (node : Node) (scope : ScopeId) (stack : List Frame) :
    (Config.eval node scope stack base).Copies line streams
      (Config.eval (node.relined line) scope (stack.map (Frame.relined line)) copy) := by
  cases node with
  | call | conditional | loop | breaks | returns => exact ⟨rfl, rfl, copies⟩
  | identifier name old =>
    simp only [Config.eval, Node.relined, Session.lookup, copies.arena, Arena.lookup_relined]
    cases base.arena.lookup scope name <;> exact ⟨rfl, rfl, copies⟩
  | literal value old => cases value <;> exact ⟨rfl, rfl, copies⟩
  | assignment target value old => cases target <;> exact ⟨rfl, rfl, copies⟩
  | definition name params body site old =>
    exact ⟨rfl, rfl, (copies.capture scope).define scope name _⟩

theorem call (copies : base.Copies line streams copy) (place : Place) (callee : Value) (done : List Value)
    (rest : List Node) (scope : ScopeId) (stack : List Frame) :
    (Config.call place callee done rest scope stack base).Copies line streams
      (Config.call (place.relined line) (callee.relined line) (done.map (Value.relined line))
        (Node.relinedAll line rest) scope (stack.map (Frame.relined line)) copy) := by
  cases rest with
  | cons argument rest => exact ⟨rfl, rfl, copies⟩
  | nil =>
    cases callee with
    | procedure procedure =>
      refine ⟨?_, rfl, copies⟩
      simp only [Config.call, Node.relinedAll, Value.relined, Value.image, Control.relined, List.map_reverse]
    | nothing | boolean | number | text => exact ⟨rfl, rfl, copies⟩

theorem statements (proper : regime.Proper) (tame : regime.Tame) (copies : base.Copies line streams copy)
    (name : String) (rest : List Node) (scope : ScopeId) (stack : List Frame) :
    (Config.statements regime name rest scope stack base).Copies line streams
      (Config.statements regime name (Node.relinedAll line rest) scope (stack.map (Frame.relined line)) copy) := by
  cases rest with
  | cons statement rest =>
    refine ⟨rfl, ?_, copies⟩
    simp only [Config.statements, Node.relinedAll, List.map_cons, Frame.relined, Node.place_relined]
    rfl
  | nil => exact ⟨rfl, rfl, copies.close proper tame scope⟩

theorem closure (proper : regime.Proper) (tame : regime.Tame) (copies : base.Copies line streams copy) (c : Closure)
    (arguments : List Value) (stack : List Frame) :
    (Config.invoke regime (.closure c) arguments stack base).Copies line streams
      (Config.invoke regime (.closure (c.relined line)) (arguments.map (Value.relined line))
        (stack.map (Frame.relined line)) copy) := by
  obtain ⟨same, inside⟩ := copies.openScope c.scope
  have zipped : c.params.zip (arguments.map (Value.relined line)) =
      Bindings.image (Procedure.relined line) (c.params.zip arguments) :=
    List.zip_map_right
  simp only [Config.invoke, Closure.relined, List.length_map]
  split
  · rw [zipped, same]
    exact statements proper tame ((inside.defineAll _ _).note _ _) c.name c.body _ stack
  · exact ⟨rfl, rfl, copies⟩

theorem resume (proper : regime.Proper) (tame : regime.Tame) (copies : base.Copies line streams copy) (value : Value)
    (frame : Frame) (stack : List Frame) :
    (Config.resume regime value frame stack base).Copies line streams
      (Config.resume regime (value.relined line) (frame.relined line) (stack.map (Frame.relined line)) copy) := by
  cases frame with
  | next rest scope => cases rest <;> exact ⟨rfl, rfl, copies⟩
  | head place arguments scope => exact call copies place value [] arguments scope stack
  | argument place callee done rest scope => exact call copies place callee (value :: done) rest scope stack
  | invoking | branch | loopBody | loopElse | give => exact ⟨rfl, rfl, copies⟩
  | assign place name scope => exact ⟨rfl, rfl, copies.define scope name value⟩
  | test place thenBlock elseBlock scope =>
    simp only [Config.resume, Frame.relined, Value.isTruthy_relined]
    split <;> exact ⟨rfl, rfl, copies⟩
  | loopTest loop iterations scope =>
    simp only [Config.resume, Frame.relined, Value.isTruthy_relined]
    split
    · exact ⟨rfl, rfl, copies⟩
    · exact ⟨rfl, rfl, copies.note _ _⟩
  | body name place rest scope => exact statements proper tame copies name rest scope stack

theorem unwind (proper : regime.Proper) (tame : regime.Tame) (copies : base.Copies line streams copy) (escape : Escape)
    (frame : Frame) (stack : List Frame) :
    (Config.unwind regime escape frame stack base).Copies line streams
      (Config.unwind regime (escape.relined line) (frame.relined line) (stack.map (Frame.relined line)) copy) := by
  have passed {place : Place} {doing : String} :
      Config.Copies line streams ⟨.escape (escape.passing place doing), stack, base⟩
        ⟨.escape ((escape.relined line).passing (place.relined line) doing), stack.map (Frame.relined line), copy⟩ :=
    ⟨congrArg Control.escape (escape.passing_relined place doing).symm, rfl, copies⟩
  cases frame with
  | next => exact ⟨rfl, rfl, copies⟩
  | head | assign | test | loopTest | loopElse | give => exact passed
  | argument place callee done rest scope =>
    simp only [Config.unwind, Frame.relined, List.length_map]
    exact passed
  | invoking place procedure =>
    simp only [Config.unwind, Frame.relined, Procedure.describe_relined]
    exact passed
  | branch place taken => cases taken <;> exact passed
  | loopBody loop iterations scope =>
    cases escape with
    | broke => exact ⟨rfl, rfl, copies.note _ _⟩
    | failed | returned => exact passed
  | body name place rest scope =>
    cases escape <;> exact ⟨rfl, rfl, copies.close proper tame scope⟩

theorem step (proper : regime.Proper) (tame : regime.Tame) {config twin : Config}
    (copies : config.Copies line streams twin) (quiet : config.control.acts = false) :
    (config.stepUnder regime).Copies line streams (twin.stepUnder regime) := by
  obtain ⟨control, stack, session⟩ := config
  obtain ⟨_, _, other⟩ := twin
  obtain ⟨rfl, rfl, copies⟩ := copies
  cases control with
  | eval node scope => exact .running (eval (copies.note _ _) node scope stack)
  | block nodes scope => cases nodes <;> exact .running ⟨rfl, rfl, copies⟩
  | invoke procedure arguments =>
    cases procedure with
    | builtin b => cases quiet
    | closure c => exact .running (closure proper tame copies c arguments stack)
  | value result =>
    cases stack with
    | nil => exact .finished (.ok result) copies
    | cons frame stack => exact .running (resume proper tame copies result frame stack)
  | escape reason =>
    cases stack with
    | nil => exact .finished (.error reason) copies
    | cons frame stack => exact .running (unwind proper tame copies reason frame stack)

end Config.Copies

/-! ### Two evaluations -/

/-- Two sessions that differ from a third in line numbers only, with related streams. -/
def Session.Kin (related : Streams → Streams → Prop) (first second : Nat → Nat) (base one other : Session) : Prop :=
  ∃ streams others, base.Copies first streams one ∧ base.Copies second others other ∧ related streams others

def Config.Kin (related : Streams → Streams → Prop) (first second : Nat → Nat) (base one other : Config) : Prop :=
  ∃ streams others, base.Copies first streams one ∧ base.Copies second others other ∧ related streams others

/-- A regime in which nothing depends on line numbers: builtins answer alike, and leave related streams related. -/
structure Regime.Blind (related : Streams → Streams → Prop) (regime : Regime) : Prop where
  proper : regime.Proper
  tame : regime.Tame
  act : ∀ (first second : Nat → Nat) (one other : Session) (action : Action) (arguments : List Value),
    related one.streams other.streams → ∃ answer,
      (regime.act one action (arguments.map (Value.relined first))).1 = imageAnswer (Procedure.relined first) answer ∧
      (regime.act other action (arguments.map (Value.relined second))).1 =
        imageAnswer (Procedure.relined second) answer ∧
      related (regime.act one action (arguments.map (Value.relined first))).2.streams
        (regime.act other action (arguments.map (Value.relined second))).2.streams

namespace Config.Kin

variable {related : Streams → Streams → Prop} {first second : Nat → Nat} {regime : Regime}

theorem builtin (blind : regime.Blind related) {base one other : Session}
    (kin : Session.Kin related first second base one other) (b : Builtin) (arguments : List Value) (stack : List Frame) :
    ∃ next, Config.Kin related first second next
      (Config.invoke regime (.builtin b) (arguments.map (Value.relined first)) (stack.map (Frame.relined first)) one)
      (Config.invoke regime (.builtin b) (arguments.map (Value.relined second)) (stack.map (Frame.relined second))
        other) := by
  obtain ⟨streams, others, copies, copiesToo, alike⟩ := kin
  simp only [Config.invoke, List.length_map]
  split
  · have same : related one.streams other.streams := by
      rw [copies.streams, copiesToo.streams]
      exact alike
    obtain ⟨answer, here, there, after⟩ := blind.act first second one other b.action arguments same
    obtain ⟨arena, sites⟩ := blind.tame.act one b.action (arguments.map (Value.relined first))
    obtain ⟨arenaToo, sitesToo⟩ := blind.tame.act other b.action (arguments.map (Value.relined second))
    generalize regime.act one b.action (arguments.map (Value.relined first)) = left at here after arena sites ⊢
    generalize regime.act other b.action (arguments.map (Value.relined second)) = right at there after arenaToo sitesToo ⊢
    obtain ⟨_, session⟩ := left
    obtain ⟨_, sessionToo⟩ := right
    obtain ⟨rfl, rfl⟩ := And.intro here there
    have kept : base.Copies first session.streams session :=
      ⟨arena.trans copies.arena, sites.trans copies.sites, rfl⟩
    have keptToo : base.Copies second sessionToo.streams sessionToo :=
      ⟨arenaToo.trans copiesToo.arena, sitesToo.trans copiesToo.sites, rfl⟩
    cases answer with
    | ok value => exact ⟨⟨.value value, stack, base⟩, _, _, ⟨rfl, rfl, kept⟩, ⟨rfl, rfl, keptToo⟩, after⟩
    | error fault => exact ⟨.fault fault stack base, _, _, ⟨rfl, rfl, kept⟩, ⟨rfl, rfl, keptToo⟩, after⟩
  · exact ⟨.fault (.badCall _) stack base, streams, others, ⟨rfl, rfl, copies⟩, ⟨rfl, rfl, copiesToo⟩, alike⟩

/-- Both go on, or both end, with outcomes that differ in line numbers only. -/
theorem step (blind : regime.Blind related) {base one other : Config} (kin : Kin related first second base one other) :
    (∃ next after afterToo, one.stepUnder regime = .running after ∧ other.stepUnder regime = .running afterToo ∧
      Kin related first second next after afterToo) ∨
    ∃ outcome last after afterToo, one.stepUnder regime = .finished (Outcome.relined first outcome) after ∧
      other.stepUnder regime = .finished (Outcome.relined second outcome) afterToo ∧
      Session.Kin related first second last after afterToo := by
  obtain ⟨streams, others, copies, copiesToo, alike⟩ := kin
  cases quiet : base.control.acts with
  | true =>
    obtain ⟨control, stack, session⟩ := base
    obtain ⟨_, _, here⟩ := one
    obtain ⟨_, _, there⟩ := other
    obtain ⟨rfl, rfl, copies⟩ := copies
    obtain ⟨rfl, rfl, copiesToo⟩ := copiesToo
    cases control with
    | invoke procedure arguments =>
      cases procedure with
      | builtin b =>
        obtain ⟨next, following⟩ := builtin blind ⟨streams, others, copies, copiesToo, alike⟩ b arguments stack
        exact .inl ⟨next, _, _, rfl, rfl, following⟩
      | closure c => cases quiet
    | eval | block | value | escape => cases quiet
  | false =>
    have here := copies.step blind.proper blind.tame quiet
    have there := copiesToo.step blind.proper blind.tame quiet
    generalize base.stepUnder regime = next at here there
    generalize one.stepUnder regime = after at here ⊢
    generalize other.stepUnder regime = afterToo at there ⊢
    cases here with
    | running copies =>
      cases there with
      | running copiesToo => exact .inl ⟨_, _, _, rfl, rfl, streams, others, copies, copiesToo, alike⟩
    | finished outcome copies =>
      cases there with
      | finished _ copiesToo => exact .inr ⟨outcome, _, _, _, rfl, rfl, streams, others, copies, copiesToo, alike⟩

theorem run (blind : regime.Blind related) {base one other : Config} (kin : Kin related first second base one other)
    (fuel : Nat) :
    one.runUnder regime fuel = none ∧ other.runUnder regime fuel = none ∨
    ∃ outcome last after afterToo, one.runUnder regime fuel = some (Outcome.relined first outcome, after) ∧
      other.runUnder regime fuel = some (Outcome.relined second outcome, afterToo) ∧
      Session.Kin related first second last after afterToo := by
  induction fuel generalizing base one other with
  | zero => exact .inl ⟨rfl, rfl⟩
  | succ fuel ih =>
    rw [runUnder, runUnder]
    obtain ⟨next, after, afterToo, here, there, following⟩ | ⟨outcome, last, after, afterToo, here, there, ended⟩ :=
      kin.step blind
    · rw [here, there]
      exact ih following
    · rw [here, there]
      exact .inr ⟨outcome, last, after, afterToo, rfl, rfl, ended⟩

end Config.Kin

/-! ### Two numberings at once -/

section Twice

variable (first second : Nat → Nat)

theorem Procedure.relined_relined (procedure : Procedure) :
    (procedure.relined first).relined second = procedure.relined fun line => second (first line) := by
  cases procedure with
  | builtin b => rfl
  | closure c => simp only [relined, Closure.relined, Node.relinedAll_relinedAll]

theorem Value.relined_relined (value : Value) :
    (value.relined first).relined second = value.relined fun line => second (first line) := by
  rw [relined, relined, image_image, funext (Procedure.relined_relined first second)]
  rfl

theorem Failure.relined_relined (failure : Failure) :
    (failure.relined first).relined second = failure.relined fun line => second (first line) := by
  rw [relined, relined, Fault.image_image, List.map_map, funext (Procedure.relined_relined first second)]
  rfl

theorem Outcome.relined_relined (outcome : Outcome) :
    Outcome.relined second (Outcome.relined first outcome) =
      Outcome.relined (fun line => second (first line)) outcome := by
  cases outcome with
  | ok value => exact congrArg Except.ok (value.relined_relined first second)
  | error escape =>
    cases escape with
    | failed failure => exact congrArg (Except.error ∘ Escape.failed) (failure.relined_relined first second)
    | broke => rfl
    | returned value => exact congrArg (Except.error ∘ Escape.returned) (value.relined_relined first second)

theorem Arena.relined_relined (arena : Arena) :
    (arena.relined first).relined second = arena.relined fun line => second (first line) := by
  have scopes : Scope.relined second ∘ Scope.relined first = Scope.relined fun line => second (first line) := by
    funext scope
    rw [Function.comp_apply, Scope.relined, Scope.relined, Bindings.image_image,
      funext (Procedure.relined_relined first second)]
    rfl
  rw [relined, relined, Array.map_map, scopes]
  rfl

end Twice

theorem Procedure.exists_paired {one other : Procedure}
    (same : one.relined (fun _ => 0) = other.relined fun _ => 0) :
    ∃ procedure : Procedure, procedure.relined Node.former = one ∧ procedure.relined Node.latter = other := by
  cases one with
  | builtin b =>
    cases other with
    | builtin b' =>
      cases same
      exact ⟨.builtin b, rfl, rfl⟩
    | closure => cases same
  | closure c =>
    cases other with
    | builtin => cases same
    | closure c' =>
      obtain ⟨name, params, body, site, scope⟩ := c
      obtain ⟨name', params', body', site', scope'⟩ := c'
      obtain ⟨rfl, rfl, bodies, rfl, rfl⟩ := Closure.mk.inj (Procedure.closure.inj same)
      obtain ⟨nodes, rfl, rfl⟩ := Node.exists_pairedAll body body' bodies
      exact ⟨.closure ⟨name, params, nodes, site, scope⟩, rfl, rfl⟩

theorem Value.exists_paired {one other : Value} (same : one.relined (fun _ => 0) = other.relined fun _ => 0) :
    ∃ value : Value, value.relined Node.former = one ∧ value.relined Node.latter = other := by
  cases one with
  | procedure procedure =>
    cases other with
    | procedure procedure' =>
      obtain ⟨both, rfl, rfl⟩ := Procedure.exists_paired (Value.procedure.inj same)
      exact ⟨.procedure both, rfl, rfl⟩
    | nothing | boolean | number | text => cases same
  | nothing | boolean | number | text =>
    cases other with
    | procedure => cases same
    | nothing | boolean | number | text =>
      cases same
      all_goals exact ⟨_, image_of_isProcedure rfl, image_of_isProcedure rfl⟩

theorem exists_paired_map {α : Type} {mask first second : α → α}
    (each : ∀ {one other}, mask one = mask other → ∃ both, first both = one ∧ second both = other)
    {one other : List α} (same : one.map mask = other.map mask) :
    ∃ both : List α, both.map first = one ∧ both.map second = other := by
  induction one generalizing other with
  | nil =>
    cases List.map_eq_nil_iff.mp same.symm
    exact ⟨[], rfl, rfl⟩
  | cons item rest ih =>
    cases other with
    | nil => cases same
    | cons item' rest' =>
      obtain ⟨here, later⟩ := List.cons.inj same
      obtain ⟨head, rfl, rfl⟩ := each here
      obtain ⟨tail, rfl, rfl⟩ := ih later
      exact ⟨head :: tail, rfl, rfl⟩

theorem Scope.exists_paired {one other : Scope} (same : one.relined (fun _ => 0) = other.relined fun _ => 0) :
    ∃ scope : Scope, scope.relined Node.former = one ∧ scope.relined Node.latter = other := by
  obtain ⟨bindings, parent, captured⟩ := one
  obtain ⟨bindings', parent', captured'⟩ := other
  obtain ⟨held, rfl, rfl⟩ := Scope.mk.inj same
  have entries {one other : String × Value}
      (same : (one.1, Value.relined (fun _ => 0) one.2) = (other.1, Value.relined (fun _ => 0) other.2)) :
      ∃ both : String × Value, (both.1, Value.relined Node.former both.2) = one ∧
        (both.1, Value.relined Node.latter both.2) = other := by
    obtain ⟨names, values⟩ := Prod.mk.inj same
    obtain ⟨value, former, latter⟩ := Value.exists_paired values
    exact ⟨(one.1, value), Prod.ext rfl former, Prod.ext names latter⟩
  obtain ⟨both, rfl, rfl⟩ := exists_paired_map entries held
  exact ⟨⟨both, parent, captured⟩, rfl, rfl⟩

theorem Arena.exists_paired {one other : Arena} (same : one.relined (fun _ => 0) = other.relined fun _ => 0) :
    ∃ arena : Arena, arena.relined Node.former = one ∧ arena.relined Node.latter = other := by
  obtain ⟨⟨slots⟩, free⟩ := one
  obtain ⟨⟨slots'⟩, free'⟩ := other
  obtain ⟨scopes, rfl⟩ := Arena.mk.inj same
  simp only [List.map_toArray, Array.mk.injEq] at scopes
  obtain ⟨both, rfl, rfl⟩ := exists_paired_map Scope.exists_paired scopes
  refine ⟨⟨both.toArray, free⟩, ?_, ?_⟩
  · rw [relined, List.map_toArray]
  · rw [relined, List.map_toArray]

/-! ### Whole runs -/

/-- The same sessions but for the lines of the procedures in them, with related streams. -/
structure Session.Agree (related : Streams → Streams → Prop) (one other : Session) : Prop where
  arena : one.arena.relined (fun _ => 0) = other.arena.relined fun _ => 0
  sites : one.sites = other.sites
  streams : related one.streams other.streams

namespace Session.Agree

variable {related : Streams → Streams → Prop} {one other : Session}

theorem exists_kin (agree : one.Agree related other) : ∃ base, Kin related Node.former Node.latter base one other := by
  obtain ⟨arena, former, latter⟩ := Arena.exists_paired agree.arena
  exact ⟨⟨arena, one.streams, one.log, one.sites⟩, one.streams, other.streams, ⟨former.symm, rfl, rfl⟩,
    ⟨latter.symm, agree.sites.symm, rfl⟩, agree.streams⟩

theorem of_kin {first second : Nat → Nat} {base : Session} (kin : Kin related first second base one other) :
    one.Agree related other := by
  obtain ⟨streams, others, copies, copiesToo, alike⟩ := kin
  refine ⟨?_, copies.sites.trans copiesToo.sites.symm, ?_⟩
  · rw [copies.arena, copiesToo.arena, Arena.relined_relined, Arena.relined_relined]
  · rw [copies.streams, copiesToo.streams]
    exact alike

/-- Programs that differ in line numbers only take each other's steps, and what they come to differs in line numbers
only. -/
theorem run {regime : Regime} (blind : regime.Blind related) (agree : one.Agree related other)
    {program twin : List Node} (same : Node.relinedAll (fun _ => 0) program = Node.relinedAll (fun _ => 0) twin)
    (fuel : Nat) :
    one.runUnder regime fuel program = none ∧ other.runUnder regime fuel twin = none ∨
    ∃ outcome outcomeToo after afterToo, one.runUnder regime fuel program = some (outcome, after) ∧
      other.runUnder regime fuel twin = some (outcomeToo, afterToo) ∧
      Outcome.relined (fun _ => 0) outcome = Outcome.relined (fun _ => 0) outcomeToo ∧ after.Agree related afterToo := by
  obtain ⟨base, streams, others, copies, copiesToo, alike⟩ := agree.exists_kin
  obtain ⟨nodes, rfl, rfl⟩ := Node.exists_pairedAll program twin same
  have kin : Config.Kin related Node.former Node.latter
      ⟨.block (base.load nodes).1 Arena.root, [], (base.load nodes).2⟩
      ⟨.block (one.load (Node.relinedAll Node.former nodes)).1 Arena.root, [],
        (one.load (Node.relinedAll Node.former nodes)).2⟩
      ⟨.block (other.load (Node.relinedAll Node.latter nodes)).1 Arena.root, [],
        (other.load (Node.relinedAll Node.latter nodes)).2⟩ := by
    simp only [Session.load, copies.sites, copiesToo.sites, Node.numberAll_relined]
    exact ⟨streams, others, ⟨rfl, rfl, copies.arena, rfl, copies.streams⟩,
      ⟨rfl, rfl, copiesToo.arena, rfl, copiesToo.streams⟩, alike⟩
  refine (kin.run blind fuel).imp_right ?_
  rintro ⟨outcome, last, after, afterToo, ran, ranToo, ended⟩
  refine ⟨_, _, after, afterToo, ran, ranToo, ?_, of_kin ended⟩
  rw [Outcome.relined_relined, Outcome.relined_relined]

end Session.Agree

end Parlance
