import Parlance.Proofs.Machine.Regime

/-! What one step can do. Its effect on the arena is one of six, and each says where the names and values that it binds come
from; what is evaluated stays in its place; and no value turns up that was not held, bound or plain. Invariants of runs are
derived from these facts and do not look at the step again. -/
namespace Parlance

inductive Effect (config next : Config) : Prop
  | still (arena : next.session.arena = config.session.arena)
      (owned : invocations next.stack = invocations config.stack)
  | assign (place : Place) (name : String) (scope : ScopeId) (rest : List Frame) (value : Value)
      (waiting : config.stack = .assign place name scope :: rest) (given : config.control = .value value)
      (arena : next.session.arena = config.session.arena.define scope name value)
      (owned : invocations next.stack = invocations config.stack)
  | definition (name : String) (params : List String) (body : List Node) (site line : Nat) (scope : ScopeId)
      (given : config.control = .eval (.definition name params body site line) scope)
      (arena : next.session.arena = (config.session.arena.capture scope).define scope name
        (.procedure (.closure ⟨name, params, body, site, scope⟩)))
      (owned : invocations next.stack = invocations config.stack)
  | enter (closure : Closure) (arguments : List Value)
      (given : config.control = .invoke (.closure closure) arguments)
      (arena : next.session.arena = (config.session.arena.child closure.scope).2.defineAll
        config.session.arena.vacant (closure.params.zip arguments))
      (owned : invocations next.stack = config.session.arena.vacant :: invocations config.stack)
  | leave (scope : ScopeId) (arena : next.session.arena = config.session.arena.release scope)
      (owned : invocations config.stack = scope :: invocations next.stack)
  /-- An invocation of an empty body, over as soon as it begins. -/
  | pass (closure : Closure) (arguments : List Value)
      (given : config.control = .invoke (.closure closure) arguments)
      (arena : next.session.arena = ((config.session.arena.child closure.scope).2.defineAll
        config.session.arena.vacant (closure.params.zip arguments)).release config.session.arena.vacant)
      (owned : invocations next.stack = invocations config.stack)

namespace Effect

variable {regime : Regime}

theorem eval (node : Node) (scope : ScopeId) (stack : List Frame) (session : Session) :
    Effect ⟨.eval node scope, stack, session⟩ (Config.eval node scope stack (session.note (.evaluating node))) := by
  cases node with
  | identifier name line =>
    simp only [Config.eval]
    split <;> exact .still rfl rfl
  | assignment target value line => cases target <;> exact .still rfl rfl
  | definition name params body site line => exact .definition name params body site line scope rfl rfl rfl
  | call | literal | conditional | loop | breaks | returns => exact .still rfl rfl

theorem statements (proper : regime.Proper) (config : Config) (name : String) (rest : List Node)
    (scope : ScopeId) (stack : List Frame) (session : Session)
    (ended : rest = [] → ∀ next : Config, next.session.arena = session.arena.release scope →
      invocations next.stack = invocations stack → Effect config next)
    (goes : ∀ next : Config, next.session.arena = session.arena → invocations next.stack = scope :: invocations stack →
      Effect config next) :
    Effect config (Config.statements regime name rest scope stack session) := by
  cases rest with
  | nil => exact ended rfl _ (proper.close session scope) rfl
  | cons statement rest => exact goes _ rfl rfl

theorem call (config : Config) (place : Place) (callee : Value) (done : List Value) (rest : List Node)
    (scope : ScopeId) (stack : List Frame) (session : Session) (arena : session.arena = config.session.arena)
    (owned : invocations stack = invocations config.stack) :
    Effect config (Config.call place callee done rest scope stack session) := by
  cases rest with
  | cons argument rest => exact .still arena owned
  | nil => cases callee <;> exact .still arena owned

theorem invoke (proper : regime.Proper) (procedure : Procedure) (arguments : List Value) (stack : List Frame)
    (session : Session) :
    Effect ⟨.invoke procedure arguments, stack, session⟩
      (Config.invoke regime procedure arguments stack session) := by
  cases procedure with
  | builtin b =>
    have arena := proper.arena session b.action arguments
    simp only [Config.invoke]
    split
    · split
      · rename_i acted
        rw [acted] at arena
        exact .still arena rfl
      · rename_i acted
        rw [acted] at arena
        exact .still arena rfl
    · exact .still rfl rfl
  | closure c =>
    simp only [Config.invoke]
    split
    · refine statements proper _ c.name c.body _ stack _ ?_ ?_
      · intro _ next arena owned
        exact .pass c arguments rfl (by simpa using arena) owned
      · intro next arena owned
        exact .enter c arguments rfl (by simpa using arena) (by simpa using owned)
    · exact .still rfl rfl

theorem resume (proper : regime.Proper) (value : Value) (frame : Frame) (stack : List Frame) (session : Session) :
    Effect ⟨.value value, frame :: stack, session⟩ (Config.resume regime value frame stack session) := by
  cases frame with
  | next statements scope => cases statements <;> exact .still rfl rfl
  | head place arguments scope => exact call _ place value [] arguments scope stack session rfl rfl
  | argument place callee done rest scope =>
    exact call _ place callee (value :: done) rest scope stack session rfl rfl
  | assign place name scope => exact .assign place name scope stack value rfl rfl rfl rfl
  | test place thenBlock elseBlock scope =>
    simp only [Config.resume]
    split <;> exact .still rfl rfl
  | loopTest loop iterations scope =>
    simp only [Config.resume]
    split <;> exact .still rfl rfl
  | body name place rest scope =>
    refine statements proper _ name rest scope stack session ?_ ?_
    · intro _ next arena owned
      exact .leave scope arena (by simp [owned])
    · intro next arena owned
      exact .still arena (by simp [owned])
  | invoking | branch | loopBody | loopElse | give => exact .still rfl rfl

theorem unwind (proper : regime.Proper) (escape : Escape) (frame : Frame) (stack : List Frame) (session : Session) :
    Effect ⟨.escape escape, frame :: stack, session⟩ (Config.unwind regime escape frame stack session) := by
  cases frame with
  | branch place taken => cases taken <;> exact .still rfl rfl
  | loopBody loop iterations scope => cases escape <;> exact .still rfl rfl
  | body name place rest scope =>
    have arena := proper.close session scope
    cases escape <;> exact .leave scope arena rfl
  | next | head | argument | invoking | assign | test | loopTest | loopElse | give => exact .still rfl rfl

theorem step (proper : regime.Proper) {config next : Config}
    (stepped : config.stepUnder regime = .running next) : Effect config next := by
  obtain ⟨control, stack, session⟩ := config
  cases control with
  | eval node scope =>
    cases stepped
    exact eval node scope stack session
  | block statements scope =>
    cases statements <;> cases stepped <;> exact .still rfl rfl
  | invoke procedure arguments =>
    cases stepped
    exact invoke proper procedure arguments stack session
  | value value =>
    cases stack with
    | nil => cases stepped
    | cons frame stack =>
      cases stepped
      exact resume proper value frame stack session
  | escape escape =>
    cases stack with
    | nil => cases stepped
    | cons frame stack =>
      cases stepped
      exact unwind proper escape frame stack session

end Effect

/-! ### Places -/

namespace Placed

variable {regime : Regime} {base : Option ScopeId}

theorem eval (node : Node) {scope : ScopeId} {stack : List Frame} (session : Session)
    (works : workplace base stack = some scope) (placed : StackPlaced base stack) :
    (Config.eval node scope stack session).Placed base := by
  unfold workplace at works
  cases node with
  | identifier name line =>
    simp only [Config.eval]
    split <;> simp [Config.Placed, Config.fault, placed]
  | assignment target value line =>
    cases target <;> simp [Config.eval, Config.fault, Config.Placed, workplace, works, placed]
  | call | literal | conditional | loop | breaks | definition | returns =>
    simp [Config.eval, Config.Placed, workplace, works, placed]

theorem call (place : Place) (callee : Value) (done : List Value) (rest : List Node) {scope : ScopeId}
    {stack : List Frame} (session : Session) (works : workplace base stack = some scope)
    (placed : StackPlaced base stack) : (Config.call place callee done rest scope stack session).Placed base := by
  unfold workplace at works
  cases rest with
  | cons argument rest => simp [Config.call, Config.Placed, workplace, works, placed]
  | nil => cases callee <;> simp [Config.call, Config.fault, Config.Placed, placed]

theorem statements (name : String) (rest : List Node) (scope : ScopeId) {stack : List Frame} (session : Session)
    (placed : StackPlaced base stack) : (Config.statements regime name rest scope stack session).Placed base := by
  cases rest <;> simp [Config.statements, Config.Placed, workplace, placed]

theorem invoke (procedure : Procedure) (arguments : List Value) {stack : List Frame} (session : Session)
    (placed : StackPlaced base stack) : (Config.invoke regime procedure arguments stack session).Placed base := by
  cases procedure with
  | builtin b =>
    simp only [Config.invoke]
    split
    · split <;> simp [Config.fault, Config.Placed, placed]
    · simp [Config.fault, Config.Placed, placed]
  | closure c =>
    simp only [Config.invoke]
    split
    · exact statements c.name c.body _ _ placed
    · simp [Config.fault, Config.Placed, placed]

theorem resume (value : Value) {frame : Frame} {stack : List Frame} (session : Session)
    (placed : StackPlaced base (frame :: stack)) :
    (Config.resume regime value frame stack session).Placed base := by
  obtain ⟨below, placed⟩ := placed
  unfold workplace at below
  cases frame with
  | head place arguments scope => exact call place value [] arguments session (below scope rfl) placed
  | argument place callee done rest scope =>
    exact call place callee (value :: done) rest session (below scope rfl) placed
  | body name place rest scope => exact statements name rest scope session placed
  | next statements scope =>
    have works := below scope rfl
    cases statements with
    | nil => simp [Config.resume, Config.Placed, placed]
    | cons statement rest => simp [Config.resume, Config.Placed, workplace, works, placed]
  | test place thenBlock elseBlock scope =>
    have works := below scope rfl
    simp only [Config.resume]
    split <;> simp [Config.Placed, workplace, works, placed]
  | loopTest loop iterations scope =>
    have works := below scope rfl
    simp only [Config.resume]
    split <;> simp [Config.Placed, workplace, works, placed]
  | loopBody loop iterations scope =>
    have works := below scope rfl
    simp [Config.resume, Config.Placed, workplace, works, placed]
  | assign | invoking | branch | loopElse | give => simp [Config.resume, Config.Placed, placed]

theorem unwind (escape : Escape) {frame : Frame} {stack : List Frame} (session : Session)
    (placed : StackPlaced base (frame :: stack)) :
    (Config.unwind regime escape frame stack session).Placed base := by
  obtain ⟨_, placed⟩ := placed
  cases frame with
  | branch place taken => cases taken <;> simp [Config.unwind, Config.Placed, placed]
  | loopBody loop iterations scope => cases escape <;> simp [Config.unwind, Config.Placed, placed]
  | body name place rest scope => cases escape <;> simp [Config.unwind, Config.fault, Config.Placed, placed]
  | next | head | argument | invoking | assign | test | loopTest | loopElse | give =>
    simp [Config.unwind, Config.Placed, placed]

theorem step {config next : Config} (placed : config.Placed base)
    (stepped : config.stepUnder regime = .running next) : next.Placed base := by
  obtain ⟨control, stack, session⟩ := config
  obtain ⟨works, placed⟩ := placed
  cases control with
  | eval node scope =>
    cases stepped
    exact eval node _ (works scope rfl) placed
  | block statements scope =>
    have here := works scope rfl
    unfold workplace at here
    cases statements with
    | nil =>
      cases stepped
      simp [Config.Placed, placed]
    | cons statement rest =>
      cases stepped
      simp [Config.Placed, workplace, here, placed]
  | invoke procedure arguments =>
    cases stepped
    exact invoke procedure arguments session placed
  | value value =>
    cases stack with
    | nil => cases stepped
    | cons frame stack =>
      cases stepped
      exact resume value session placed
  | escape escape =>
    cases stack with
    | nil => cases stepped
    | cons frame stack =>
      cases stepped
      exact unwind escape session placed

end Placed

/-! ### Values -/

/-- A value that a step makes: the one that stands for nothing, that of a literal, or the result of a builtin. -/
inductive Made (regime : Regime) (config : Config) (value : Value) : Prop
  | nothing (same : value = .nothing)
  | literal (literal : Literal) (line : Nat) (scope : ScopeId) (given : config.control = .eval (.literal literal line) scope)
      (same : value = .ofLiteral literal)
  | result (builtin : Builtin) (arguments : List Value) (given : config.control = .invoke (.builtin builtin) arguments)
      (acted : (regime.act config.session builtin.action arguments).1 = .ok value)

/-- Where a value of the next configuration comes from. -/
inductive Provenance (regime : Regime) (config : Config) (value : Value) : Prop
  | held (member : value ∈ config.values)
  | bound (name : String) (line : Nat) (scope : ScopeId) (given : config.control = .eval (.identifier name line) scope)
      (found : config.session.lookup scope name = some value)
  | made (made : Made regime config value)

namespace Provenance

variable {regime : Regime}

theorem eval (node : Node) (scope : ScopeId) (stack : List Frame) (session : Session) {value : Value}
    (member : value ∈ (Config.eval node scope stack (session.note (.evaluating node))).values) :
    Provenance regime ⟨.eval node scope, stack, session⟩ value := by
  cases node with
  | identifier name line =>
    simp only [Config.eval] at member
    split at member
    · rename_i found
      rcases List.mem_cons.mp member with rfl | waiting
      · exact .bound name line scope rfl found
      · exact .held waiting
    · exact .held member
  | assignment target value line => cases target <;> exact .held member
  | literal literal line =>
    rcases List.mem_cons.mp member with rfl | waiting
    · exact .made (.literal literal line scope rfl rfl)
    · exact .held waiting
  | definition name params body site line =>
    rcases List.mem_cons.mp member with rfl | waiting
    · exact .made (.nothing rfl)
    · exact .held waiting
  | call | conditional | loop | breaks | returns => exact .held member

theorem call {config : Config} (place : Place) (callee : Value) (done : List Value) (rest : List Node)
    (scope : ScopeId) (stack : List Frame) (session : Session)
    (given : ∀ value ∈ callee :: done ++ stack.flatMap Frame.values, value ∈ config.values) {value : Value}
    (member : value ∈ (Config.call place callee done rest scope stack session).values) : Provenance regime config value := by
  cases rest with
  | cons argument rest => exact .held (given value member)
  | nil =>
    cases callee with
    | procedure procedure =>
      refine .held (given value ?_)
      simp only [Config.call, Config.values, Control.values, List.flatMap_cons, Frame.values, List.cons_append,
        List.mem_cons, List.mem_append, List.mem_reverse, List.nil_append] at member ⊢
      rcases member with here | here | here | here <;> simp [here]
    | nothing | boolean | number | text =>
      exact .held (given value (List.mem_append_right _ member))

theorem statements {config : Config} (name : String) (rest : List Node) (scope : ScopeId) (stack : List Frame)
    (session : Session) (given : ∀ value ∈ stack.flatMap Frame.values, value ∈ config.values) {value : Value}
    (member : value ∈ (Config.statements regime name rest scope stack session).values) : Provenance regime config value := by
  cases rest with
  | nil =>
    rcases List.mem_cons.mp member with rfl | waiting
    · exact .made (.nothing rfl)
    · exact .held (given value waiting)
  | cons statement rest => exact .held (given value member)

theorem invoke (proper : regime.Proper) (procedure : Procedure) (arguments : List Value) (stack : List Frame)
    (session : Session) {value : Value}
    (member : value ∈ (Config.invoke regime procedure arguments stack session).values) :
    Provenance regime ⟨.invoke procedure arguments, stack, session⟩ value := by
  have waits : ∀ held ∈ stack.flatMap Frame.values,
      held ∈ (⟨.invoke procedure arguments, stack, session⟩ : Config).values :=
    fun held waiting => List.mem_append_right _ waiting
  have passes : ∀ held ∈ arguments, held ∈ (⟨.invoke procedure arguments, stack, session⟩ : Config).values :=
    fun held passed => List.mem_append_left _ (List.mem_cons_of_mem _ passed)
  cases procedure with
  | builtin b =>
    have fault := proper.fault session b.action arguments
    simp only [Config.invoke] at member
    split at member
    · split at member
      · rename_i acted
        rcases List.mem_cons.mp member with rfl | waiting
        · exact .made (.result b arguments rfl (by rw [acted]))
        · exact .held (waits value waiting)
      · rename_i error _ acted
        rcases List.mem_append.mp member with blamed | waiting
        · exact .held (passes value (fault error (by rw [acted]) value blamed))
        · exact .held (waits value waiting)
    · exact .held (waits value member)
  | closure c =>
    simp only [Config.invoke] at member
    split at member
    · exact statements c.name c.body _ stack _ waits member
    · exact .held (waits value member)

theorem resume (result : Value) (frame : Frame) (stack : List Frame) (session : Session) {value : Value}
    (member : value ∈ (Config.resume regime result frame stack session).values) :
    Provenance regime ⟨.value result, frame :: stack, session⟩ value := by
  have waits : ∀ held ∈ stack.flatMap Frame.values,
      held ∈ (⟨.value result, frame :: stack, session⟩ : Config).values := by
    intro held waiting
    simp only [Config.values, List.flatMap_cons, List.mem_append]
    exact Or.inr (Or.inr waiting)
  cases frame with
  | next statements scope =>
    cases statements with
    | nil => exact .held member
    | cons statement rest => exact .held (waits value member)
  | head place arguments scope =>
    refine call place result [] arguments scope stack session ?_ member
    intro held given
    exact given
  | argument place callee done rest scope =>
    refine call place callee (result :: done) rest scope stack session ?_ member
    intro held given
    simp only [Config.values, Control.values, Frame.values, List.flatMap_cons, List.cons_append, List.nil_append,
      List.mem_cons, List.mem_append] at given ⊢
    rcases given with here | here | here | here <;> simp [here]
  | invoking place procedure =>
    rcases List.mem_cons.mp member with rfl | waiting
    · exact .held List.mem_cons_self
    · exact .held (waits value waiting)
  | assign place name scope =>
    rcases List.mem_cons.mp member with rfl | waiting
    · exact .made (.nothing rfl)
    · exact .held (waits value waiting)
  | test place thenBlock elseBlock scope =>
    simp only [Config.resume] at member
    split at member <;> exact .held (waits value member)
  | loopTest loop iterations scope =>
    simp only [Config.resume] at member
    split at member <;> exact .held (waits value member)
  | loopBody loop iterations scope => exact .held (waits value member)
  | loopElse loop =>
    rcases List.mem_cons.mp member with rfl | waiting
    · exact .made (.nothing rfl)
    · exact .held (waits value waiting)
  | body name place rest scope => exact statements name rest scope stack session waits member
  | branch | give => exact .held member

theorem unwind (escape : Escape) (frame : Frame) (stack : List Frame) (session : Session) {value : Value}
    (member : value ∈ (Config.unwind regime escape frame stack session).values) :
    Provenance regime ⟨.escape escape, frame :: stack, session⟩ value := by
  have passes : ∀ held ∈ escape.values ++ stack.flatMap Frame.values,
      held ∈ (⟨.escape escape, frame :: stack, session⟩ : Config).values := by
    intro held given
    simp only [Config.values, Control.values, List.flatMap_cons, List.mem_append] at given ⊢
    rcases given with escaping | waiting
    · exact Or.inl escaping
    · exact Or.inr (Or.inr waiting)
  cases frame with
  | branch place taken =>
    cases taken <;>
    · simp only [Config.unwind, Config.values, Control.values, Escape.values_passing] at member
      exact .held (passes value member)
  | loopBody loop iterations scope =>
    cases escape with
    | broke =>
      rcases List.mem_cons.mp member with rfl | waiting
      · exact .made (.nothing rfl)
      · exact .held (passes value waiting)
    | failed failure | returned result =>
      simp only [Config.unwind, Config.values, Control.values, Escape.values_passing] at member
      exact .held (passes value member)
  | body name place rest scope =>
    cases escape with
    | broke | returned result => exact .held (passes value member)
    | failed failure =>
      simp only [Config.unwind, Config.values, Control.values, Escape.values_passing] at member
      exact .held (passes value member)
  | next statements scope => exact .held (passes value member)
  | head | argument | invoking | assign | test | loopTest | loopElse | give =>
    simp only [Config.unwind, Config.values, Control.values, Escape.values_passing] at member
    exact .held (passes value member)

theorem step (proper : regime.Proper) {config next : Config} (stepped : config.stepUnder regime = .running next)
    {value : Value} (member : value ∈ next.values) : Provenance regime config value := by
  obtain ⟨control, stack, session⟩ := config
  cases control with
  | eval node scope =>
    cases stepped
    exact eval node scope stack session member
  | block statements scope =>
    cases statements with
    | nil =>
      cases stepped
      rcases List.mem_cons.mp member with rfl | waiting
      · exact .made (.nothing rfl)
      · exact .held waiting
    | cons statement rest =>
      cases stepped
      exact .held member
  | invoke procedure arguments =>
    cases stepped
    exact invoke proper procedure arguments stack session member
  | value result =>
    cases stack with
    | nil => cases stepped
    | cons frame stack =>
      cases stepped
      exact resume result frame stack session member
  | escape escape =>
    cases stack with
    | nil => cases stepped
    | cons frame stack =>
      cases stepped
      exact unwind escape frame stack session member

end Provenance

/-- Where a value of the next configuration comes from, if all that matters is whether it leads to a scope. -/
inductive Origin (config : Config) (value : Value) : Prop
  | held (member : value ∈ config.values)
  | plain (none : value.handle? = none)
  | bound (name : String) (line : Nat) (scope : ScopeId) (given : config.control = .eval (.identifier name line) scope)
      (found : config.session.lookup scope name = some value)

theorem Origin.step {regime : Regime} (proper : regime.Proper) {config next : Config}
    (stepped : config.stepUnder regime = .running next) {value : Value} (member : value ∈ next.values) :
    Origin config value := by
  cases Provenance.step proper stepped member with
  | held member => exact .held member
  | bound name line scope given found => exact .bound name line scope given found
  | made made =>
    cases made with
    | nothing same => exact .plain (same ▸ rfl)
    | literal literal line scope given same =>
      subst same
      exact .plain (by cases literal <;> rfl)
    | result builtin arguments given acted =>
      rcases proper.result _ _ _ _ acted with passed | plain
      · refine .held ?_
        unfold Config.values
        rw [given]
        exact List.mem_append_left _ (List.mem_cons_of_mem _ passed)
      · exact .plain plain

/-- An evaluation is over when nothing waits for its outcome. -/
theorem step_finished {regime : Regime} {config : Config} {outcome : Outcome} {session : Session}
    (stepped : config.stepUnder regime = .finished outcome session) :
    config.stack = [] ∧ config.session = session ∧ config.values = Outcome.values outcome := by
  obtain ⟨control, stack, session⟩ := config
  cases control with
  | eval | invoke => cases stepped
  | block statements scope => cases statements <;> cases stepped
  | value result =>
    cases stack with
    | nil =>
      cases stepped
      exact ⟨rfl, rfl, rfl⟩
    | cons frame stack => cases stepped
  | escape escape =>
    cases stack with
    | nil =>
      cases stepped
      exact ⟨rfl, rfl, List.append_nil _⟩
    | cons frame stack => cases stepped

end Parlance
