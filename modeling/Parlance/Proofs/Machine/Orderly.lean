import Parlance.Proofs.Machine.Binding
import Parlance.Proofs.Node.WellFormed

/-! Well-formed programs at work. A frame waits either for the value of an expression or for the end of a statement, and
only what it waits for is evaluated above it; so no signal reaches a frame that waits for a value. An operator's procedure
is looked up as the callee of its two operands, and is nowhere else in an evaluation's hands. -/
namespace Parlance

/-! ### Builtins -/

def Procedure.isOperator : Procedure → Bool
  | .builtin ⟨_, _, .operate _⟩ => true
  | _ => false

def Value.isOperator : Value → Bool
  | .procedure p => p.isOperator
  | _ => false

theorem Value.isOperator_of_isProcedure {value : Value} (data : value.isProcedure = false) : value.isOperator = false := by
  cases value with
  | procedure procedure => cases data
  | nothing | boolean | number | text => rfl

def Fault.isBadTarget : Fault → Bool
  | .badTarget _ => true
  | _ => false

theorem Value.expectNumber_isBadTarget {value : Value} {fault : Fault} (failed : value.expectNumber = .error fault) :
    fault.isBadTarget = false := by
  cases value <;> cases failed <;> rfl

theorem Value.compare_isBadTarget {left right : Value} {fault : Fault} (failed : left.compare right = .error fault) :
    fault.isBadTarget = false := by
  unfold compare at failed
  split at failed <;> cases failed <;> rfl

theorem Value.toNumber_isBadTarget {value : Value} {fault : Fault} (failed : value.toNumber = .error fault) :
    fault.isBadTarget = false := by
  unfold toNumber at failed
  split at failed
  · cases failed
  · cases failed
  · split at failed <;> cases failed
    rfl
  · cases failed
    rfl

theorem Operator.apply_isBadTarget {operator : Operator} {left right : Value} {fault : Fault}
    (failed : operator.apply left right = .error fault) : fault.isBadTarget = false := by
  unfold apply at failed
  split at failed
  · rcases bind_failure failed with compared | ⟨same, _, rest⟩
    · exact Value.compare_isBadTarget compared
    · cases rest
  · rcases bind_failure failed with compared | ⟨same, _, rest⟩
    · exact Value.compare_isBadTarget compared
    · cases rest
  · rcases bind_failure failed with first | ⟨a, _, rest⟩
    · exact Value.expectNumber_isBadTarget first
    rcases bind_failure rest with second | ⟨b, _, rest⟩
    · exact Value.expectNumber_isBadTarget second
    split at rest <;> cases rest
    rfl

namespace Action

theorem writing_isBadTarget {streams : Streams} {text : String} {given : Value} {fault : Fault}
    (failed : (writing streams text given).1 = .error fault) : fault.isBadTarget = false := by
  unfold writing at failed
  generalize streams.write text = outcome at failed
  obtain ⟨_ | _, after⟩ := outcome <;> cases failed
  rfl

theorem answer_isBadTarget {streams : Streams} {fault : Fault} (failed : (answer streams).1 = .error fault) :
    fault.isBadTarget = false := by
  unfold answer at failed
  generalize streams.readLine = outcome at failed
  obtain ⟨_ | _ | line, after⟩ := outcome <;> cases failed <;> rfl

/-- No builtin finds fault with the target of an assignment. -/
theorem run_isBadTarget {action : Action} {streams : Streams} {arguments : List Value} {fault : Fault}
    (failed : (action.run streams arguments).1 = .error fault) : fault.isBadTarget = false := by
  cases action with
  | display | inspect => exact writing_isBadTarget failed
  | ask =>
    simp only [run] at failed
    split at failed
    · exact answer_isBadTarget failed
    · split at failed
      · exact answer_isBadTarget failed
      · rename_i written
        cases failed
        exact writing_isBadTarget (congrArg Prod.fst written)
  | number =>
    simp only [run] at failed
    split at failed
    · rename_i given
      cases converted : given.toNumber with
      | error reason =>
        simp only [converted, Except.map, Except.error.injEq] at failed
        exact failed ▸ Value.toNumber_isBadTarget converted
      | ok n => simp [converted, Except.map] at failed
    · cases failed
      rfl
  | operate operator =>
    simp only [run] at failed
    split at failed
    · exact Operator.apply_isBadTarget failed
    · cases failed
      rfl

end Action

/-! ### Stacks -/

/-- Whether the frame waits for the value of an expression. -/
def Frame.awaits : Frame → Bool
  | .head .. | .argument .. | .invoking .. | .assign .. | .test .. | .loopTest .. | .give _ => true
  | .next .. | .branch .. | .loopBody .. | .loopElse _ | .body .. => false

/-- Whether the frame waits for the callee of two arguments. -/
def Frame.isOperation : Frame → Bool
  | .head _ [_, _] _ => true
  | _ => false

def awaitsValue (stack : List Frame) : Bool :=
  stack.head?.any Frame.awaits

def awaitsOperator (stack : List Frame) : Bool :=
  stack.head?.any Frame.isOperation

/-- What may be evaluated above a stack. -/
inductive Admits (fit : String → Prop) (stack : List Frame) : Node → Prop
  | expression {node : Node} (expresses : node.Expresses fit) : Admits fit stack node
  | statement {node : Node} (formed : node.WellFormed fit) (free : awaitsValue stack = false) : Admits fit stack node
  | callee (operator : Operator) (line : Nat) (two : awaitsOperator stack = true) :
      Admits fit stack (.identifier operator.procedureName line)

/-- A signal is allowed where no value of an expression is awaited. -/
def Escape.Suits (stack : List Frame) : Escape → Prop
  | .failed failure => failure.cause.isBadTarget = false
  | .broke => awaitsValue stack = false
  | .returned value => awaitsValue stack = false ∧ value.isOperator = false

def Control.Suits (fit : String → Prop) (stack : List Frame) : Control → Prop
  | .eval node _ => Admits fit stack node
  | .block nodes _ => (∀ node ∈ nodes, node.WellFormed fit) ∧ awaitsValue stack = false
  | .invoke procedure arguments =>
    (procedure.isOperator = true → arguments.length = 2) ∧ ∀ value ∈ arguments, value.isOperator = false
  | .value result => result.isOperator = true → awaitsOperator stack = true
  | .escape reason => reason.Suits stack

structure Loop.Suits (fit : String → Prop) (loop : Loop) : Prop where
  condition : loop.condition.Expresses fit
  body : ∀ node ∈ loop.body, node.WellFormed fit
  otherwise : ∀ node ∈ loop.otherwise, node.WellFormed fit

def Frame.Suits (fit : String → Prop) (below : List Frame) : Frame → Prop
  | .next nodes _ => (∀ node ∈ nodes, node.WellFormed fit) ∧ awaitsValue below = false
  | .head _ arguments _ => ∀ argument ∈ arguments, argument.Expresses fit
  | .argument _ callee done rest _ =>
    (callee.isOperator = true → done.length + rest.length = 1) ∧ (∀ value ∈ done, value.isOperator = false) ∧
      ∀ argument ∈ rest, argument.Expresses fit
  | .invoking .. => True
  | .assign .. | .branch .. | .loopElse _ | .give _ => awaitsValue below = false
  | .test _ thenBlock elseBlock _ =>
    ((∀ node ∈ thenBlock, node.WellFormed fit) ∧ ∀ node ∈ elseBlock, node.WellFormed fit) ∧ awaitsValue below = false
  | .loopTest loop _ _ | .loopBody loop _ _ => loop.Suits fit ∧ awaitsValue below = false
  | .body _ _ nodes _ => ∀ node ∈ nodes, node.WellFormed fit

def StackSuits (fit : String → Prop) : List Frame → Prop
  | [] => True
  | frame :: rest => frame.Suits fit rest ∧ StackSuits fit rest

def Config.Suits (fit : String → Prop) (config : Config) : Prop :=
  config.control.Suits fit config.stack ∧ StackSuits fit config.stack

variable {fit : String → Prop}

/-- The frame is gone, and what it made of an escape goes on to a frame that waits for no value. -/
theorem Escape.Suits.passing {stack below : List Frame} {escape : Escape} (suits : escape.Suits stack)
    (place : Place) (doing : String) (further : awaitsValue stack = false → awaitsValue below = false) :
    (escape.passing place doing).Suits below := by
  cases escape with
  | failed failure => exact suits
  | broke => exact further suits
  | returned value => exact ⟨further suits.1, suits.2⟩

/-! ### One step -/

namespace Suits

variable {stack : List Frame}

/-- A value that is no operator's procedure may come anywhere. -/
theorem value {result : Value} (session : Session) (plain : result.isOperator = false) (waiting : StackSuits fit stack) :
    Config.Suits fit ⟨.value result, stack, session⟩ :=
  ⟨fun given => absurd given (Bool.eq_false_iff.mp plain), waiting⟩

theorem fault {reason : Fault} (session : Session) (other : reason.isBadTarget = false)
    (waiting : StackSuits fit stack) : (Config.fault reason stack session).Suits fit :=
  ⟨other, waiting⟩

/-- A name that is looked up is fit, or it is the callee of two operands. -/
theorem identifier {name : String} {scope : ScopeId} (line : Nat) {session : Session}
    (operators : ∀ value, session.lookup scope name = some value → value.isOperator = true →
      awaitsOperator stack = true)
    (waiting : StackSuits fit stack) : (Config.eval (.identifier name line) scope stack session).Suits fit := by
  simp only [Config.eval]
  split
  · rename_i value found
    exact ⟨operators value found, waiting⟩
  · exact fault session rfl waiting

theorem expression {node : Node} {scope : ScopeId} {session : Session}
    (operators : ∀ name value, session.lookup scope name = some value → value.isOperator = true → ¬ fit name)
    (expresses : node.Expresses fit) (waiting : StackSuits fit stack) :
    (Config.eval node scope stack session).Suits fit := by
  cases expresses with
  | identifier line fits =>
    exact identifier line (fun value found given => absurd fits (operators _ value found given)) waiting
  | literal value line => exact Suits.value session (by cases value <;> rfl) waiting
  | call line head few given => exact ⟨.expression head, given, waiting⟩
  | operation operator inner line before after =>
    refine ⟨.callee operator inner rfl, ?_, waiting⟩
    exact List.forall_mem_cons.mpr ⟨before, List.forall_mem_singleton.mpr after⟩

theorem eval {node : Node} {scope : ScopeId} {session : Session}
    (operators : ∀ name value, session.lookup scope name = some value → value.isOperator = true → ¬ fit name)
    (admits : Admits fit stack node) (waiting : StackSuits fit stack) :
    (Config.eval node scope stack session).Suits fit := by
  cases admits with
  | expression expresses => exact expression operators expresses waiting
  | callee operator line two => exact identifier line (fun _ _ _ => two) waiting
  | statement formed free =>
    cases formed with
    | expression expresses => exact expression operators expresses waiting
    | assignment name inner line given => exact ⟨.expression given, free, waiting⟩
    | conditional line test taken otherwise => exact ⟨.expression test, ⟨⟨taken, otherwise⟩, free⟩, waiting⟩
    | loop line test inside after => exact ⟨.expression test, ⟨⟨test, inside, after⟩, free⟩, waiting⟩
    | breaks line => exact ⟨free, waiting⟩
    | definition name param site line inside => exact value _ rfl waiting
    | returns line given => exact ⟨.expression given, free, waiting⟩

/-- The number of operands is settled when the callee is known. -/
theorem call (place : Place) {callee : Value} {done : List Value} {rest : List Node} (scope : ScopeId) (session : Session)
    (operands : callee.isOperator = true → done.length + rest.length = 2)
    (plain : ∀ value ∈ done, value.isOperator = false) (given : ∀ argument ∈ rest, argument.Expresses fit)
    (waiting : StackSuits fit stack) : (Config.call place callee done rest scope stack session).Suits fit := by
  cases rest with
  | cons argument rest =>
    obtain ⟨now, later⟩ := List.forall_mem_cons.mp given
    refine ⟨.expression now, ⟨?_, plain, later⟩, waiting⟩
    intro operator
    have count := operands operator
    rw [List.length_cons] at count
    omega
  | nil =>
    cases callee with
    | procedure procedure =>
      refine ⟨⟨fun operator => ?_, fun value member => plain value (List.mem_reverse.mp member)⟩, trivial, waiting⟩
      rw [List.length_reverse]
      exact operands operator
    | nothing | boolean | number | text => exact fault session rfl waiting

theorem statements {regime : Regime} (name : String) {rest : List Node} (scope : ScopeId) (session : Session)
    (given : ∀ node ∈ rest, node.WellFormed fit) (waiting : StackSuits fit stack) :
    (Config.statements regime name rest scope stack session).Suits fit := by
  cases rest with
  | nil => exact value _ rfl waiting
  | cons statement rest =>
    obtain ⟨now, later⟩ := List.forall_mem_cons.mp given
    exact ⟨.statement now rfl, later, waiting⟩

theorem invoke {procedure : Procedure} {arguments : List Value} (session : Session)
    (plain : ∀ value ∈ arguments, value.isOperator = false)
    (entered : ∀ closure, procedure = .closure closure → ∀ node ∈ closure.body, node.WellFormed fit)
    (waiting : StackSuits fit stack) : (Config.invoke .usual procedure arguments stack session).Suits fit := by
  cases procedure with
  | builtin b =>
    simp only [Config.invoke, Regime.usual]
    split
    · split
      · rename_i result after acted
        refine value after ?_ waiting
        rcases Action.run_result (congrArg Prod.fst acted) with member | data
        · exact plain result member
        · exact Value.isOperator_of_isProcedure data
      · rename_i acted
        exact fault _ (Action.run_isBadTarget (congrArg Prod.fst acted)) waiting
    · exact fault session rfl waiting
  | closure c =>
    simp only [Config.invoke]
    split
    · exact statements c.name _ _ (entered c rfl) waiting
    · exact fault session rfl waiting

theorem resume {regime : Regime} {result : Value} {frame : Frame} (session : Session)
    (given : result.isOperator = true → frame.isOperation = true) (waiting : StackSuits fit (frame :: stack)) :
    (Config.resume regime result frame stack session).Suits fit := by
  obtain ⟨suits, waiting⟩ := waiting
  -- An operator's procedure comes to the head of an operation only.
  have plain (other : frame.isOperation = false) : result.isOperator = false :=
    Bool.eq_false_iff.mpr fun operator => Bool.eq_false_iff.mp other (given operator)
  cases frame with
  | next nodes scope =>
    cases nodes with
    | nil => exact value session (plain rfl) waiting
    | cons statement rest =>
      obtain ⟨now, later⟩ := List.forall_mem_cons.mp suits.1
      exact ⟨.statement now rfl, ⟨later, suits.2⟩, waiting⟩
  | head place arguments scope =>
    refine call place scope session ?_ (List.forall_mem_nil _) suits waiting
    intro operator
    have two := given operator
    rcases arguments with _ | ⟨first, _ | ⟨second, _ | ⟨third, rest⟩⟩⟩
    · cases two
    · cases two
    · rfl
    · cases two
  | argument place callee done rest scope =>
    obtain ⟨operands, earlier, later⟩ := suits
    refine call place scope session ?_ (List.forall_mem_cons.mpr ⟨plain rfl, earlier⟩) later waiting
    intro operator
    have count := operands operator
    rw [List.length_cons]
    omega
  | invoking | branch => exact value session (plain rfl) waiting
  | assign | loopElse => exact value _ rfl waiting
  | test place thenBlock elseBlock scope =>
    simp only [Config.resume]
    split
    · exact ⟨⟨suits.1.1, rfl⟩, suits.2, waiting⟩
    · exact ⟨⟨suits.1.2, rfl⟩, suits.2, waiting⟩
  | loopTest loop iterations scope =>
    simp only [Config.resume]
    split
    · exact ⟨⟨suits.1.body, rfl⟩, suits, waiting⟩
    · exact ⟨⟨suits.1.otherwise, rfl⟩, suits.2, waiting⟩
  | loopBody loop iterations scope => exact ⟨.expression suits.1.condition, suits, waiting⟩
  | give place => exact ⟨⟨suits, plain rfl⟩, waiting⟩
  | body name place rest scope => exact statements name scope session suits waiting

/-- A frame that waits for a value lets failures pass only; one that waits for a statement stands above another such, or
stops all signals. -/
theorem unwind {regime : Regime} {escape : Escape} {frame : Frame} (session : Session)
    (given : escape.Suits (frame :: stack)) (waiting : StackSuits fit (frame :: stack)) :
    (Config.unwind regime escape frame stack session).Suits fit := by
  obtain ⟨suits, waiting⟩ := waiting
  have stopped (awaiting : frame.awaits = true) : awaitsValue (frame :: stack) = false → awaitsValue stack = false :=
    fun free => absurd awaiting (Bool.eq_false_iff.mp free)
  cases frame with
  | next nodes scope =>
    cases escape with
    | failed failure => exact ⟨given, waiting⟩
    | broke => exact ⟨suits.2, waiting⟩
    | returned value => exact ⟨⟨suits.2, given.2⟩, waiting⟩
  | branch place taken => cases taken <;> exact ⟨given.passing _ _ fun _ => suits, waiting⟩
  | loopElse loop => exact ⟨given.passing _ _ fun _ => suits, waiting⟩
  | loopBody loop iterations scope =>
    cases escape with
    | broke => exact value _ rfl waiting
    | failed failure => exact ⟨given, waiting⟩
    | returned value => exact ⟨⟨suits.2, given.2⟩, waiting⟩
  | body name place rest scope =>
    cases escape with
    | broke => exact fault _ rfl waiting
    | failed failure => exact ⟨given, waiting⟩
    | returned result => exact value _ given.2 waiting
  | head | argument | invoking | assign | test | loopTest | give => exact ⟨given.passing _ _ (stopped rfl), waiting⟩

theorem step {config next : Config}
    (operators : ∀ scope, config.control.scope? = some scope → ∀ name value,
      config.session.lookup scope name = some value → value.isOperator = true → ¬ fit name)
    (entered : ∀ closure arguments, config.control = .invoke (.closure closure) arguments →
      ∀ node ∈ closure.body, node.WellFormed fit)
    (suits : config.Suits fit) (stepped : config.step = .running next) : next.Suits fit := by
  obtain ⟨control, stack, session⟩ := config
  obtain ⟨given, waiting⟩ := suits
  cases control with
  | eval node scope =>
    cases stepped
    exact eval (operators scope rfl) given waiting
  | block nodes scope =>
    cases nodes with
    | nil =>
      cases stepped
      exact value session rfl waiting
    | cons statement rest =>
      cases stepped
      obtain ⟨now, later⟩ := List.forall_mem_cons.mp given.1
      exact ⟨.statement now rfl, ⟨later, given.2⟩, waiting⟩
  | invoke procedure arguments =>
    cases stepped
    refine invoke session given.2 ?_ waiting
    intro closure same
    exact entered closure arguments (by rw [same])
  | value result =>
    cases stack with
    | nil => cases stepped
    | cons frame stack =>
      cases stepped
      exact resume session given waiting
  | escape escape =>
    cases stack with
    | nil => cases stepped
    | cons frame stack =>
      cases stepped
      exact unwind session given waiting

end Suits
end Parlance
