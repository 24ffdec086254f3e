import Parlance.Proofs.Machine.Image

/-! Renaming the handles of scopes wherever they occur: in values, in escapes, and in all that an evaluation holds. No
text that a program can show depends on them, and no builtin looks at them, `debug` apart. -/
namespace Parlance

def Closure.rename (move : ScopeId → ScopeId) (closure : Closure) : Closure :=
  { closure with scope := move closure.scope }

def Procedure.rename (move : ScopeId → ScopeId) : Procedure → Procedure
  | .builtin b => .builtin b
  | .closure c => .closure (c.rename move)

def Value.rename (move : ScopeId → ScopeId) : Value → Value
  | .nothing => .nothing
  | .boolean b => .boolean b
  | .number n => .number n
  | .text t => .text t
  | .procedure p => .procedure (p.rename move)

def Fault.rename (move : ScopeId → ScopeId) : Fault → Fault
  | .unknownName name => .unknownName name
  | .wrongType expected value => .wrongType expected (value.rename move)
  | .badCall details => .badCall details
  | .badTarget label => .badTarget label
  | .stream details => .stream details

/-- The trail names no scope. -/
def Escape.rename (move : ScopeId → ScopeId) : Escape → Escape
  | .failed ⟨cause, trail⟩ => .failed ⟨cause.rename move, trail⟩
  | .broke => .broke
  | .returned value => .returned (value.rename move)

def Outcome.rename (move : ScopeId → ScopeId) : Outcome → Outcome
  | .ok value => .ok (value.rename move)
  | .error escape => .error (escape.rename move)

def Control.rename (move : ScopeId → ScopeId) : Control → Control
  | .eval node scope => .eval node (move scope)
  | .block statements scope => .block statements (move scope)
  | .invoke procedure arguments => .invoke (procedure.rename move) (arguments.map (Value.rename move))
  | .value result => .value (result.rename move)
  | .escape reason => .escape (reason.rename move)

def Frame.rename (move : ScopeId → ScopeId) : Frame → Frame
  | .next statements scope => .next statements (move scope)
  | .head call arguments scope => .head call arguments (move scope)
  | .argument call callee done rest scope =>
    .argument call (callee.rename move) (done.map (Value.rename move)) rest (move scope)
  | .invoking call procedure => .invoking call (procedure.rename move)
  | .assign assignment name scope => .assign assignment name (move scope)
  | .test conditional thenBlock elseBlock scope => .test conditional thenBlock elseBlock (move scope)
  | .branch conditional taken => .branch conditional taken
  | .loopTest loop iterations scope => .loopTest loop iterations (move scope)
  | .loopBody loop iterations scope => .loopBody loop iterations (move scope)
  | .loopElse loop => .loopElse loop
  | .give returns => .give returns
  | .body name statement rest scope => .body name statement rest (move scope)

def Bindings.rename (move : ScopeId → ScopeId) (bindings : Bindings) : Bindings :=
  bindings.map fun entry => (entry.1, entry.2.rename move)

def Scope.rename (move : ScopeId → ScopeId) (scope : Scope) : Scope :=
  ⟨scope.bindings.rename move, scope.parent.map move, scope.captured⟩

variable {move : ScopeId → ScopeId}

/-! ### What does not depend on handles -/

@[simp] theorem Procedure.describe_rename (procedure : Procedure) :
    (procedure.rename move).describe = procedure.describe := by
  cases procedure <;> rfl

@[simp] theorem Value.describe_rename (value : Value) : (value.rename move).describe = value.describe := by
  cases value with
  | procedure procedure => exact procedure.describe_rename
  | nothing | boolean | number | text => rfl

@[simp] theorem Value.isTruthy_rename (value : Value) : (value.rename move).isTruthy = value.isTruthy := by
  cases value <;> rfl

theorem Fault.message_rename (fault : Fault) : (fault.rename move).message = fault.message := by
  unfold rename message
  cases fault with
  | wrongType expected value =>
    dsimp only
    rw [Value.describe_rename]
  | unknownName | badCall | badTarget | stream => rfl

theorem Escape.message_rename (escape : Escape) : (escape.rename move).message = escape.message := by
  cases escape with
  | failed failure =>
    unfold rename message Failure.message
    dsimp only
    rw [Fault.message_rename]
  | broke => rfl
  | returned value =>
    unfold rename message
    dsimp only
    rw [Value.describe_rename]

@[simp] theorem Escape.passing_rename (escape : Escape) (place : Place) (doing : String) :
    (escape.passing place doing).rename move = (escape.rename move).passing place doing := by
  cases escape <;> rfl

@[simp] theorem Value.ofLiteral_rename (literal : Literal) :
    (Value.ofLiteral literal).rename move = Value.ofLiteral literal := by
  cases literal <;> rfl

/-! ### Renamings that agree where it matters -/

section Agreement

variable {other : ScopeId → ScopeId}

theorem Value.rename_congr {value : Value} (agree : ∀ id, value.handle? = some id → move id = other id) :
    value.rename move = value.rename other := by
  cases value with
  | procedure procedure =>
    cases procedure with
    | builtin b => rfl
    | closure c =>
      simp only [rename, Procedure.rename, Closure.rename]
      rw [agree c.scope rfl]
  | nothing | boolean | number | text => rfl

theorem Value.map_rename_congr {values : List Value}
    (agree : ∀ value ∈ values, ∀ id, value.handle? = some id → move id = other id) :
    values.map (Value.rename move) = values.map (Value.rename other) :=
  List.map_congr_left fun value member => rename_congr (agree value member)

theorem Procedure.rename_congr {procedure : Procedure}
    (agree : ∀ id, (Value.procedure procedure).handle? = some id → move id = other id) :
    procedure.rename move = procedure.rename other :=
  Value.procedure.inj (Value.rename_congr agree)

theorem Frame.rename_congr {frame : Frame} (here : ∀ scope, frame.scope? = some scope → move scope = other scope)
    (own : ∀ scope, frame.own? = some scope → move scope = other scope)
    (agree : ∀ value ∈ frame.values, ∀ id, value.handle? = some id → move id = other id) :
    frame.rename move = frame.rename other := by
  cases frame with
  | next | head | assign | test | loopTest | loopBody =>
    simp only [rename]
    rw [here _ rfl]
  | argument call callee done rest scope =>
    obtain ⟨head, values⟩ := List.forall_mem_cons.mp agree
    simp only [rename]
    rw [Value.rename_congr head, Value.map_rename_congr values, here scope rfl]
  | invoking call procedure =>
    simp only [rename]
    rw [Procedure.rename_congr (agree _ List.mem_cons_self)]
  | body name statement rest scope =>
    simp only [rename]
    rw [own scope rfl]
  | branch | loopElse | give => rfl

theorem Scope.rename_congr {scope : Scope} (outward : ∀ parent, scope.parent = some parent → move parent = other parent)
    (agree : ∀ entry ∈ scope.bindings, ∀ id, entry.2.handle? = some id → move id = other id) :
    scope.rename move = scope.rename other := by
  have bindings : scope.bindings.rename move = scope.bindings.rename other := by
    refine List.map_congr_left ?_
    intro entry member
    rw [Value.rename_congr (agree entry member)]
  have parent : scope.parent.map move = scope.parent.map other := by
    cases given : scope.parent with
    | none => rfl
    | some parent => exact congrArg some (outward parent given)
  simp only [rename, bindings, parent]

end Agreement

/-! ### Identity -/

@[simp] theorem Value.rename_id (value : Value) : value.rename id = value := by
  cases value with
  | procedure procedure => cases procedure <;> rfl
  | nothing | boolean | number | text => rfl

theorem Bindings.rename_id (bindings : Bindings) : bindings.rename id = bindings := by
  unfold rename
  simp

theorem Scope.rename_id (scope : Scope) : scope.rename id = scope := by
  simp [rename, Bindings.rename_id]

/-! ### Renaming as a change of procedures -/

/-- What a builtin gives back. -/
def renameAnswer (move : ScopeId → ScopeId) : Except Fault Value → Except Fault Value
  | .ok value => .ok (value.rename move)
  | .error fault => .error (fault.rename move)

theorem Value.rename_eq_image : Value.rename move = Value.image (Procedure.rename move) := by
  funext value
  cases value <;> rfl

theorem renameAnswer_eq_image : renameAnswer move = imageAnswer (Procedure.rename move) := by
  funext answer
  cases answer with
  | ok value => exact congrArg Except.ok (congrFun Value.rename_eq_image value)
  | error fault =>
    cases fault with
    | wrongType expected value =>
      exact congrArg (fun value => Except.error (Fault.wrongType expected value))
        (congrFun Value.rename_eq_image value)
    | unknownName | badCall | badTarget | stream => rfl

theorem Bindings.rename_eq_image (bindings : Bindings) :
    bindings.rename move = bindings.image (Procedure.rename move) := by
  rw [rename, Value.rename_eq_image]
  rfl

theorem Bindings.find?_rename (bindings : Bindings) (name : String) :
    (bindings.rename move).find? name = (bindings.find? name).map (Value.rename move) := by
  rw [rename_eq_image, Value.rename_eq_image]
  exact find?_image bindings name

theorem Bindings.insert_rename (bindings : Bindings) (name : String) (value : Value) :
    (bindings.insert name value).rename move = (bindings.rename move).insert name (value.rename move) := by
  rw [rename_eq_image, rename_eq_image, Value.rename_eq_image]
  exact insert_image bindings name value

namespace Action

variable {related : Streams → Streams → Prop} {first second : Streams}

theorem writing_rename (move : ScopeId → ScopeId) {text twin : String}
    (written : (second.write twin).1 = (first.write text).1 ∧ related (first.write text).2 (second.write twin).2)
    (value : Value) :
    (writing second twin (value.rename move)).1 = renameAnswer move (writing first text value).1 ∧
      related (writing first text value).2 (writing second twin (value.rename move)).2 := by
  rw [Value.rename_eq_image, renameAnswer_eq_image]
  exact writing_image (Procedure.rename move) written value

/-- Only `debug` tells handles apart. -/
theorem run_rename (congruent : Streams.Congruent related) (alike : related first second) {action : Action}
    (blind : action ≠ .inspect) (arguments : List Value) :
    (action.run second (arguments.map (Value.rename move))).1 = renameAnswer move (action.run first arguments).1 ∧
      related (action.run first arguments).2 (action.run second (arguments.map (Value.rename move))).2 := by
  rw [Value.rename_eq_image, renameAnswer_eq_image]
  exact run_image Procedure.describe_rename congruent alike blind arguments

end Action
end Parlance
