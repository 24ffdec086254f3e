import Parlance.Proofs.Machine.Stack
import Parlance.Proofs.Node.Signals

/-! Signals under way. A loop at work stops `break`, and a procedure at work stops both signals, `break` by failing. What is
evaluated above a stack, and what its frames have yet to evaluate, lets out only signals that the stack stops; a step keeps
this, so a signal that is raised is one that is stopped. -/
namespace Parlance

/-- What a procedure makes of a `break` that strays from its body. -/
def Fault.strayBreak : Fault :=
  .badCall "'break' can only be used inside a loop"

theorem Fault.badCall_ne_strayBreak {details : String} (other : 't' ∈ details.toList) : .badCall details ≠ strayBreak := by
  intro same
  have equal : details = "'break' can only be used inside a loop" := badCall.inj same
  rw [equal] at other
  exact absurd other (by decide)

namespace Value

theorem expectNumber_ne_strayBreak {value : Value} : value.expectNumber ≠ .error .strayBreak := by
  intro failed
  cases value <;> cases failed

theorem compare_ne_strayBreak {left right : Value} : left.compare right ≠ .error .strayBreak := by
  intro failed
  unfold compare at failed
  split at failed <;> cases failed

theorem toNumber_ne_strayBreak {value : Value} : value.toNumber ≠ .error .strayBreak := by
  intro failed
  unfold toNumber at failed
  split at failed
  · cases failed
  · cases failed
  · split at failed <;> cases failed
  · cases failed

end Value

theorem Operator.apply_ne_strayBreak {operator : Operator} {left right : Value} :
    operator.apply left right ≠ .error .strayBreak := by
  intro failed
  unfold apply at failed
  split at failed
  · cases compared : left.compare right with
    | ok same => simp [compared, bind, Except.bind, pure, Except.pure] at failed
    | error fault =>
      rw [compared] at failed
      cases failed
      exact Value.compare_ne_strayBreak compared
  · cases compared : left.compare right with
    | ok same => simp [compared, bind, Except.bind, pure, Except.pure] at failed
    | error fault =>
      rw [compared] at failed
      cases failed
      exact Value.compare_ne_strayBreak compared
  · cases first : left.expectNumber with
    | error fault =>
      rw [first] at failed
      cases failed
      exact Value.expectNumber_ne_strayBreak first
    | ok a =>
      cases second : right.expectNumber with
      | error fault =>
        rw [first, second] at failed
        cases failed
        exact Value.expectNumber_ne_strayBreak second
      | ok b =>
        rw [first, second] at failed
        simp only [bind, Except.bind] at failed
        split at failed
        · cases failed
        · refine Fault.badCall_ne_strayBreak ?_ (Except.error.inj failed)
          simp only [String.toList_append, List.mem_append]
          exact Or.inr (by decide)

namespace Action

theorem wrongCount_ne_strayBreak (name : String) (expected got : Nat) : wrongCount name expected got ≠ .strayBreak := by
  refine Fault.badCall_ne_strayBreak ?_
  simp only [String.toList_append, List.mem_append]
  exact Or.inl (Or.inr (by decide))

theorem writing_ne_strayBreak {streams : Streams} {text : String} {given : Value} :
    (writing streams text given).1 ≠ .error .strayBreak := by
  intro failed
  unfold writing at failed
  generalize streams.write text = outcome at failed
  obtain ⟨_ | _, after⟩ := outcome <;> cases failed

theorem answer_ne_strayBreak {streams : Streams} : (answer streams).1 ≠ .error .strayBreak := by
  intro failed
  unfold answer at failed
  generalize streams.readLine = outcome at failed
  obtain ⟨_ | _ | line, after⟩ := outcome <;> cases failed

/-- No builtin fails the way a stray `break` does. -/
theorem run_ne_strayBreak {action : Action} {streams : Streams} {arguments : List Value} :
    (action.run streams arguments).1 ≠ .error .strayBreak := by
  intro failed
  cases action with
  | display | inspect => exact writing_ne_strayBreak failed
  | ask =>
    simp only [run] at failed
    split at failed
    · exact answer_ne_strayBreak failed
    · split at failed
      · exact answer_ne_strayBreak failed
      · rename_i written
        cases failed
        exact writing_ne_strayBreak (congrArg Prod.fst written)
  | number =>
    simp only [run] at failed
    split at failed
    · rename_i given
      cases converted : given.toNumber with
      | error fault =>
        simp only [converted, Except.map, Except.error.injEq] at failed
        exact Value.toNumber_ne_strayBreak (failed ▸ converted)
      | ok n => simp [converted, Except.map] at failed
    · exact wrongCount_ne_strayBreak _ _ _ (Except.error.inj failed)
  | operate operator =>
    simp only [run] at failed
    split at failed
    · exact Operator.apply_ne_strayBreak failed
    · exact wrongCount_ne_strayBreak _ _ _ (Except.error.inj failed)

end Action

/-! ### What may stray, and what stops it -/

namespace Node

/-- The node lets out only such signals. -/
def Within (allowed : Signal → Prop) (node : Node) : Prop :=
  ∀ signal, node.strays signal = true → allowed signal

variable {allowed : Signal → Prop}

theorem within_all {nodes : List Node} (given : ∀ signal, anyStrays signal nodes = true → allowed signal) :
    ∀ node ∈ nodes, node.Within allowed :=
  fun node member signal strays => given signal ((anyStrays_iff signal nodes).mpr ⟨node, member, strays⟩)

theorem Within.call {callee : Node} {arguments : List Node} {line : Nat}
    (given : (Node.call callee arguments line).Within allowed) :
    callee.Within allowed ∧ ∀ node ∈ arguments, node.Within allowed := by
  refine ⟨fun signal strays => given signal ?_, within_all fun signal strays => given signal ?_⟩ <;>
    simp [Node.strays, strays]

theorem Within.conditional {condition : Node} {thenBlock elseBlock : List Node} {line : Nat}
    (given : (Node.conditional condition thenBlock elseBlock line).Within allowed) :
    condition.Within allowed ∧ (∀ node ∈ thenBlock, node.Within allowed) ∧ ∀ node ∈ elseBlock, node.Within allowed := by
  refine ⟨fun signal strays => given signal ?_, within_all fun signal strays => given signal ?_,
    within_all fun signal strays => given signal ?_⟩ <;> simp [Node.strays, strays]

/-- The body of a loop may let out one signal more. -/
theorem Within.loop {condition : Node} {body otherwise : List Node} {line : Nat}
    (given : (Node.loop condition body otherwise line).Within allowed) :
    condition.Within allowed ∧ (∀ node ∈ body, node.Within fun signal => signal = .breaking ∨ allowed signal) ∧
      ∀ node ∈ otherwise, node.Within allowed := by
  refine ⟨fun signal strays => given signal ?_, within_all fun signal strays => ?_,
    within_all fun signal strays => given signal ?_⟩
  · simp [Node.strays, strays]
  · by_cases stopped : signal = .breaking
    · exact Or.inl stopped
    · refine Or.inr (given signal ?_)
      simp [Node.strays, strays, stopped]
  · simp [Node.strays, strays]

end Node

/-- The signals that a stack stops. What stops them at the bottom and in a procedure is given. -/
def stops (base inner : Signal → Prop) : List Frame → Signal → Prop
  | [] => base
  | .loopBody .. :: rest => fun signal => signal = .breaking ∨ stops base inner rest signal
  | .body .. :: _ => inner
  | _ :: rest => stops base inner rest

/-- A signal on its way is allowed; so is a procedure's failure to stop a `break`, if it is allowed inside procedures. -/
def Escape.Within (inner allowed : Signal → Prop) : Escape → Prop
  | .broke => allowed .breaking
  | .returned _ => allowed .returning
  | .failed failure => failure.cause = .strayBreak → inner .breaking

def Control.Within (inner allowed : Signal → Prop) : Control → Prop
  | .eval node _ => node.Within allowed
  | .block nodes _ => ∀ node ∈ nodes, node.Within allowed
  | .escape reason => reason.Within inner allowed
  | .invoke .. | .value _ => True

def Loop.Within (allowed : Signal → Prop) (loop : Loop) : Prop :=
  loop.condition.Within allowed ∧ (∀ node ∈ loop.body, node.Within fun signal => signal = .breaking ∨ allowed signal) ∧
    ∀ node ∈ loop.otherwise, node.Within allowed

def Frame.Within (inner allowed : Signal → Prop) : Frame → Prop
  | .next nodes _ | .head _ nodes _ | .argument _ _ _ nodes _ => ∀ node ∈ nodes, node.Within allowed
  | .test _ thenBlock elseBlock _ =>
    (∀ node ∈ thenBlock, node.Within allowed) ∧ ∀ node ∈ elseBlock, node.Within allowed
  | .loopTest loop _ _ | .loopBody loop _ _ => loop.Within allowed
  | .give _ => allowed .returning
  | .body _ _ nodes _ => ∀ node ∈ nodes, node.Within inner
  | .invoking .. | .assign .. | .branch .. | .loopElse _ => True

def StackWithin (base inner : Signal → Prop) : List Frame → Prop
  | [] => True
  | frame :: rest => frame.Within inner (stops base inner rest) ∧ StackWithin base inner rest

def Config.Within (base inner : Signal → Prop) (config : Config) : Prop :=
  config.control.Within inner (stops base inner config.stack) ∧ StackWithin base inner config.stack

theorem Escape.Within.passing {inner allowed : Signal → Prop} {escape : Escape} (given : escape.Within inner allowed)
    (place : Place) (doing : String) : (escape.passing place doing).Within inner allowed := by
  cases escape <;> exact given

/-! ### One step -/

namespace Within

variable {regime : Regime} {base inner : Signal → Prop}

theorem fault {fault : Fault} (other : fault ≠ .strayBreak) {stack : List Frame} (session : Session)
    (waiting : StackWithin base inner stack) : (Config.fault fault stack session).Within base inner :=
  ⟨fun same => absurd same other, waiting⟩

theorem eval {node : Node} (scope : ScopeId) {stack : List Frame} (session : Session)
    (given : node.Within (stops base inner stack)) (waiting : StackWithin base inner stack) :
    (Config.eval node scope stack session).Within base inner := by
  cases node with
  | call callee arguments line => exact ⟨given.call.1, given.call.2, waiting⟩
  | identifier name line =>
    simp only [Config.eval]
    split
    · exact ⟨trivial, waiting⟩
    · exact fault (by rintro ⟨⟩) session waiting
  | assignment target value line =>
    have valued : value.Within (stops base inner stack) :=
      fun signal strays => given signal (by simp [Node.strays, strays])
    cases target with
    | identifier name inside => exact ⟨valued, trivial, waiting⟩
    | call | literal | assignment | conditional | loop | breaks | definition | returns =>
      exact fault (by rintro ⟨⟩) session waiting
  | conditional condition thenBlock elseBlock line => exact ⟨given.conditional.1, given.conditional.2, waiting⟩
  | loop condition body otherwise line => exact ⟨given.loop.1, given.loop, waiting⟩
  | breaks line => exact ⟨given .breaking rfl, waiting⟩
  | returns value line =>
    have valued : value.Within (stops base inner stack) :=
      fun signal strays => given signal (by simp [Node.strays, strays])
    exact ⟨valued, given .returning rfl, waiting⟩
  | literal | definition => exact ⟨trivial, waiting⟩

theorem call (place : Place) (callee : Value) (done : List Value) {rest : List Node} (scope : ScopeId)
    {stack : List Frame} (session : Session) (given : ∀ node ∈ rest, node.Within (stops base inner stack))
    (waiting : StackWithin base inner stack) :
    (Config.call place callee done rest scope stack session).Within base inner := by
  cases rest with
  | cons argument rest =>
    obtain ⟨now, later⟩ := List.forall_mem_cons.mp given
    exact ⟨now, later, waiting⟩
  | nil =>
    have refused (other : Value) : Fault.badCall
        s!"{other.describe} is a {other.kind}, not a procedure, so it can not be invoked" ≠ .strayBreak := by
      refine Fault.badCall_ne_strayBreak ?_
      simp only [String.toList_append, List.mem_append]
      exact Or.inr (by decide)
    cases callee with
    | procedure procedure => exact ⟨trivial, trivial, waiting⟩
    | nothing | boolean | number | text => exact fault (refused _) session waiting

theorem statements (name : String) {rest : List Node} (scope : ScopeId) {stack : List Frame} (session : Session)
    (given : ∀ node ∈ rest, node.Within inner) (waiting : StackWithin base inner stack) :
    (Config.statements regime name rest scope stack session).Within base inner := by
  cases rest with
  | nil => exact ⟨trivial, waiting⟩
  | cons statement rest =>
    obtain ⟨now, later⟩ := List.forall_mem_cons.mp given
    exact ⟨now, later, waiting⟩

theorem invoke {procedure : Procedure} {arguments : List Value} {stack : List Frame} (session : Session)
    (entered : ∀ closure, procedure = .closure closure → ∀ node ∈ closure.body, node.Within inner)
    (waiting : StackWithin base inner stack) :
    (Config.invoke .usual procedure arguments stack session).Within base inner := by
  have refused (name : String) (arity : Arity) (count : Nat) :
      Fault.badCall s!"'{name}' expects {arity.describe}, but got {count}" ≠ .strayBreak := by
    refine Fault.badCall_ne_strayBreak ?_
    simp only [String.toList_append, List.mem_append]
    exact Or.inl (Or.inr (by decide))
  cases procedure with
  | builtin b =>
    simp only [Config.invoke, Regime.usual]
    split
    · split
      · exact ⟨trivial, waiting⟩
      · rename_i acted
        refine fault (fun same => ?_) _ waiting
        exact Action.run_ne_strayBreak (congrArg Prod.fst (same ▸ acted))
    · exact fault (refused _ _ _) session waiting
  | closure c =>
    simp only [Config.invoke]
    split
    · exact statements c.name _ _ (entered c rfl) waiting
    · exact fault (refused _ _ _) session waiting

theorem resume (value : Value) {frame : Frame} {stack : List Frame} (session : Session)
    (waiting : StackWithin base inner (frame :: stack)) :
    (Config.resume regime value frame stack session).Within base inner := by
  obtain ⟨given, waiting⟩ := waiting
  cases frame with
  | next nodes scope =>
    cases nodes with
    | nil => exact ⟨trivial, waiting⟩
    | cons statement rest =>
      obtain ⟨now, later⟩ := List.forall_mem_cons.mp given
      exact ⟨now, later, waiting⟩
  | head place arguments scope => exact call place value [] scope session given waiting
  | argument place callee done rest scope => exact call place callee (value :: done) scope session given waiting
  | test place thenBlock elseBlock scope =>
    simp only [Config.resume]
    split
    · exact ⟨given.1, trivial, waiting⟩
    · exact ⟨given.2, trivial, waiting⟩
  | loopTest loop iterations scope =>
    simp only [Config.resume]
    split
    · exact ⟨given.2.1, given, waiting⟩
    · exact ⟨given.2.2, trivial, waiting⟩
  | loopBody loop iterations scope => exact ⟨given.1, given, waiting⟩
  | give place => exact ⟨given, waiting⟩
  | body name place rest scope => exact statements name scope session given waiting
  | assign | invoking | branch | loopElse => exact ⟨trivial, waiting⟩

/-- A loop stops `break`, and a procedure stops both; all other frames let a signal pass. -/
theorem unwind {escape : Escape} {frame : Frame} {stack : List Frame} (session : Session)
    (given : escape.Within inner (stops base inner (frame :: stack))) (waiting : StackWithin base inner (frame :: stack)) :
    (Config.unwind regime escape frame stack session).Within base inner := by
  obtain ⟨_, waiting⟩ := waiting
  cases frame with
  | branch place taken => cases taken <;> exact ⟨given.passing _ _, waiting⟩
  | loopBody loop iterations scope =>
    cases escape with
    | broke => exact ⟨trivial, waiting⟩
    | returned value =>
      have outside : stops base inner stack .returning := given.resolve_left (by rintro ⟨⟩)
      exact ⟨outside, waiting⟩
    | failed failure => exact ⟨given, waiting⟩
  | body name place rest scope =>
    cases escape with
    | broke => exact ⟨fun _ => given, waiting⟩
    | returned value => exact ⟨trivial, waiting⟩
    | failed failure => exact ⟨given, waiting⟩
  | next => exact ⟨given, waiting⟩
  | head | argument | invoking | assign | test | loopTest | loopElse | give => exact ⟨given.passing _ _, waiting⟩

theorem step {config next : Config}
    (entered : ∀ closure arguments, config.control = .invoke (.closure closure) arguments →
      ∀ node ∈ closure.body, node.Within inner)
    (within : config.Within base inner) (stepped : config.stepUnder .usual = .running next) :
    next.Within base inner := by
  obtain ⟨control, stack, session⟩ := config
  obtain ⟨given, waiting⟩ := within
  cases control with
  | eval node scope =>
    cases stepped
    exact eval scope _ given waiting
  | block nodes scope =>
    cases nodes with
    | nil =>
      cases stepped
      exact ⟨trivial, waiting⟩
    | cons statement rest =>
      cases stepped
      obtain ⟨now, later⟩ := List.forall_mem_cons.mp given
      exact ⟨now, later, waiting⟩
  | invoke procedure arguments =>
    cases stepped
    refine invoke session ?_ waiting
    rintro closure rfl
    exact entered closure arguments rfl
  | value value =>
    cases stack with
    | nil => cases stepped
    | cons frame stack =>
      cases stepped
      exact resume value session waiting
  | escape escape =>
    cases stack with
    | nil => cases stepped
    | cons frame stack =>
      cases stepped
      exact unwind session given waiting

end Within
end Parlance
