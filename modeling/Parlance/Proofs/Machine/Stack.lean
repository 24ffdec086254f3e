import Parlance.Machine
import Parlance.Proofs.Arena.Closed

/-! What a configuration holds: the values in its hands, the scopes that its invocations own, and the scope in which it
works. Each frame works in the scope of the innermost invocation below it, or in the base scope if there is none. -/
namespace Parlance

@[simp] def Fault.values : Fault → List Value
  | .wrongType _ value => [value]
  | _ => []

@[simp] def Escape.values : Escape → List Value
  | .failed failure => failure.cause.values
  | .broke => []
  | .returned value => [value]

@[simp] def Outcome.values : Outcome → List Value
  | .ok value => [value]
  | .error escape => escape.values

@[simp] theorem Escape.values_passing (escape : Escape) (place : Place) (doing : String) :
    (escape.passing place doing).values = escape.values := by
  cases escape <;> rfl

namespace Control

@[simp] def values : Control → List Value
  | .eval .. | .block .. => []
  | .invoke procedure arguments => .procedure procedure :: arguments
  | .value result => [result]
  | .escape reason => reason.values

/-- The scope in which something is to be evaluated. -/
@[simp] def scope? : Control → Option ScopeId
  | .eval _ scope | .block _ scope => some scope
  | _ => none

end Control

namespace Frame

@[simp] def values : Frame → List Value
  | .argument _ callee done _ _ => callee :: done
  | .invoking _ procedure => [.procedure procedure]
  | _ => []

/-- The scope in which the frame goes on. -/
@[simp] def scope? : Frame → Option ScopeId
  | .next _ scope | .head _ _ scope | .argument _ _ _ _ scope | .assign _ _ scope | .test _ _ _ scope
  | .loopTest _ _ scope | .loopBody _ _ scope => some scope
  | _ => none

/-- The scope that the frame's invocation closes at its end. -/
@[simp] def own? : Frame → Option ScopeId
  | .body _ _ _ scope => some scope
  | _ => none

end Frame

/-- The scopes of the invocations at work, the innermost first. -/
def invocations (stack : List Frame) : List ScopeId :=
  stack.filterMap Frame.own?

def workplace (base : Option ScopeId) (stack : List Frame) : Option ScopeId :=
  (invocations stack).head?.or base

/-- Every frame goes on in the scope in which the stack below it works. -/
@[simp] def StackPlaced (base : Option ScopeId) : List Frame → Prop
  | [] => True
  | frame :: rest => (∀ scope, frame.scope? = some scope → workplace base rest = some scope) ∧ StackPlaced base rest

namespace Config

def values (config : Config) : List Value :=
  config.control.values ++ config.stack.flatMap Frame.values

/-- What is evaluated is evaluated in the scope in which the stack works. -/
def Placed (base : Option ScopeId) (config : Config) : Prop :=
  (∀ scope, config.control.scope? = some scope → workplace base config.stack = some scope) ∧
    StackPlaced base config.stack

end Config

@[simp] theorem invocations_nil : invocations [] = [] := rfl

@[simp] theorem invocations_cons (frame : Frame) (stack : List Frame) :
    invocations (frame :: stack) = frame.own?.toList ++ invocations stack := by
  unfold invocations
  rw [List.filterMap_cons]
  cases frame.own? <;> rfl

/-- The scopes that invocations own are the workplaces above the base. -/
theorem workplace_cases {base : Option ScopeId} {stack : List Frame} {scope : ScopeId}
    (works : workplace base stack = some scope) :
    scope ∈ invocations stack ∨ invocations stack = [] ∧ base = some scope := by
  unfold workplace at works
  cases owned : invocations stack with
  | nil => exact Or.inr ⟨rfl, by simpa [owned] using works⟩
  | cons first rest =>
    have same : first = scope := by simpa [owned] using works
    exact Or.inl (same ▸ List.mem_cons_self)

/-- A frame goes on in the base scope or in one that an invocation at work owns. -/
theorem StackPlaced.scope_owned {base : Option ScopeId} {stack : List Frame} (placed : StackPlaced base stack)
    {frame : Frame} (member : frame ∈ stack) {scope : ScopeId} (given : frame.scope? = some scope) :
    scope ∈ invocations stack ∨ base = some scope := by
  induction stack with
  | nil => cases member
  | cons first rest ih =>
    rw [invocations_cons]
    have inRest : scope ∈ invocations rest ∨ base = some scope := by
      rcases List.mem_cons.mp member with rfl | further
      · exact (workplace_cases (placed.1 scope given)).imp_right And.right
      · exact ih placed.2 further
    exact inRest.imp_left (List.mem_append_right _)

/-! ### The arena of a session -/

namespace Session

@[simp] theorem arena_note (session : Session) (event : Event) : (session.note event).arena = session.arena := rfl

@[simp] theorem arena_noteAll (session : Session) (events : List Event) :
    (session.noteAll events).arena = session.arena := rfl

theorem defineAll_eq (session : Session) (scope : ScopeId) (bindings : List (String × Value)) :
    session.defineAll scope bindings = { session with arena := session.arena.defineAll scope bindings } := by
  unfold defineAll Arena.defineAll
  induction bindings generalizing session with
  | nil => rfl
  | cons entry rest ih => exact ih (session.define scope entry.1 entry.2)

@[simp] theorem arena_defineAll (session : Session) (scope : ScopeId) (bindings : List (String × Value)) :
    (session.defineAll scope bindings).arena = session.arena.defineAll scope bindings := by
  rw [defineAll_eq]

@[simp] theorem openScope_fst (session : Session) (parent : ScopeId) :
    (session.openScope parent).1 = session.arena.vacant :=
  Arena.child_fst session.arena parent

@[simp] theorem arena_openScope (session : Session) (parent : ScopeId) :
    (session.openScope parent).2.arena = (session.arena.child parent).2 := rfl

@[simp] theorem arena_closeScope (session : Session) (scope : ScopeId) :
    (session.closeScope scope).arena = session.arena.release scope := by
  unfold closeScope Arena.release
  split <;> rfl

end Session

end Parlance
