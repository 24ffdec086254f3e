import Parlance.Proofs.Machine.Stack

/-! Disciplines: which nodes may be evaluated and which names may be assigned to. A discipline that passes from a node to
its parts is kept by evaluation. Two of them are followed at a time, one at the base and one inside invocations, where the
bodies of the procedures entered must obey the inner one. -/
namespace Parlance

structure Discipline where
  node : Node → Prop
  name : String → Prop

namespace Discipline

/-- What a node's parts must obey when the node does. Bodies of definitions are not parts: they wait for an invocation. -/
structure Lawful (discipline : Discipline) : Prop where
  call : ∀ callee arguments line, discipline.node (.call callee arguments line) →
    discipline.node callee ∧ ∀ node ∈ arguments, discipline.node node
  assignment : ∀ name inner value line, discipline.node (.assignment (.identifier name inner) value line) →
    discipline.name name ∧ discipline.node value
  conditional : ∀ condition thenBlock elseBlock line, discipline.node (.conditional condition thenBlock elseBlock line) →
    discipline.node condition ∧ (∀ node ∈ thenBlock, discipline.node node) ∧ ∀ node ∈ elseBlock, discipline.node node
  loop : ∀ condition body otherwise line, discipline.node (.loop condition body otherwise line) →
    discipline.node condition ∧ (∀ node ∈ body, discipline.node node) ∧ ∀ node ∈ otherwise, discipline.node node
  returns : ∀ value line, discipline.node (.returns value line) → discipline.node value

/-- The discipline that allows everything. -/
def free : Discipline :=
  ⟨fun _ => True, fun _ => True⟩

theorem free_lawful : free.Lawful := by
  constructor <;> simp [free]

end Discipline

def Control.Obeys (discipline : Discipline) : Control → Prop
  | .eval node _ => discipline.node node
  | .block statements _ => ∀ node ∈ statements, discipline.node node
  | _ => True

def Loop.Obeys (discipline : Discipline) (loop : Loop) : Prop :=
  discipline.node loop.condition ∧ (∀ node ∈ loop.body, discipline.node node) ∧
    ∀ node ∈ loop.otherwise, discipline.node node

def Frame.Obeys (discipline : Discipline) : Frame → Prop
  | .next nodes _ | .head _ nodes _ | .argument _ _ _ nodes _ | .body _ _ nodes _ =>
    ∀ node ∈ nodes, discipline.node node
  | .assign _ name _ => discipline.name name
  | .test _ thenBlock elseBlock _ =>
    (∀ node ∈ thenBlock, discipline.node node) ∧ ∀ node ∈ elseBlock, discipline.node node
  | .loopTest loop _ _ | .loopBody loop _ _ => loop.Obeys discipline
  | _ => True

/-- The discipline in force above a stack. -/
def prevailing (base inner : Discipline) (stack : List Frame) : Discipline :=
  match invocations stack with
  | [] => base
  | _ :: _ => inner

def StackObeys (base inner : Discipline) : List Frame → Prop
  | [] => True
  | frame :: rest => frame.Obeys (prevailing base inner (frame :: rest)) ∧ StackObeys base inner rest

def Config.Obeys (base inner : Discipline) (config : Config) : Prop :=
  config.control.Obeys (prevailing base inner config.stack) ∧ StackObeys base inner config.stack

theorem prevailing_lawful {base inner : Discipline} (baseLawful : base.Lawful) (innerLawful : inner.Lawful)
    (stack : List Frame) : (prevailing base inner stack).Lawful := by
  unfold prevailing
  split
  · exact baseLawful
  · exact innerLawful

theorem prevailing_same (discipline : Discipline) (stack : List Frame) :
    prevailing discipline discipline stack = discipline := by
  unfold prevailing
  split <;> rfl

namespace Obeys

variable {regime : Regime} {base inner : Discipline}

theorem eval (node : Node) (scope : ScopeId) {stack : List Frame} (session : Session)
    (lawful : (prevailing base inner stack).Lawful) (obeyed : (prevailing base inner stack).node node)
    (waiting : StackObeys base inner stack) : (Config.eval node scope stack session).Obeys base inner := by
  cases node with
  | call callee arguments line =>
    obtain ⟨head, rest⟩ := lawful.call callee arguments line obeyed
    exact ⟨head, rest, waiting⟩
  | identifier name line =>
    simp only [Config.eval]
    split <;> exact ⟨trivial, waiting⟩
  | assignment target value line =>
    cases target with
    | identifier name inside =>
      obtain ⟨named, valued⟩ := lawful.assignment name inside value line obeyed
      exact ⟨valued, named, waiting⟩
    | call | literal | assignment | conditional | loop | breaks | definition | returns => exact ⟨trivial, waiting⟩
  | conditional condition thenBlock elseBlock line =>
    obtain ⟨test, branches⟩ := lawful.conditional condition thenBlock elseBlock line obeyed
    exact ⟨test, branches, waiting⟩
  | loop condition body otherwise line =>
    have parts := lawful.loop condition body otherwise line obeyed
    exact ⟨parts.1, parts, waiting⟩
  | returns value line => exact ⟨lawful.returns value line obeyed, trivial, waiting⟩
  | literal | breaks | definition => exact ⟨trivial, waiting⟩

theorem call (place : Place) (callee : Value) (done : List Value) {rest : List Node} (scope : ScopeId)
    {stack : List Frame} (session : Session) (obeyed : ∀ node ∈ rest, (prevailing base inner stack).node node)
    (waiting : StackObeys base inner stack) :
    (Config.call place callee done rest scope stack session).Obeys base inner := by
  cases rest with
  | cons argument rest =>
    obtain ⟨now, later⟩ := List.forall_mem_cons.mp obeyed
    exact ⟨now, later, waiting⟩
  | nil =>
    cases callee with
    | procedure procedure => exact ⟨trivial, trivial, waiting⟩
    | nothing | boolean | number | text => exact ⟨trivial, waiting⟩

theorem statements (name : String) {rest : List Node} (scope : ScopeId) {stack : List Frame} (session : Session)
    (obeyed : ∀ node ∈ rest, inner.node node) (waiting : StackObeys base inner stack) :
    (Config.statements regime name rest scope stack session).Obeys base inner := by
  cases rest with
  | nil => exact ⟨trivial, waiting⟩
  | cons statement rest =>
    obtain ⟨now, later⟩ := List.forall_mem_cons.mp obeyed
    exact ⟨now, later, waiting⟩

theorem invoke {procedure : Procedure} {arguments : List Value} {stack : List Frame} (session : Session)
    (entered : ∀ closure, procedure = .closure closure → ∀ node ∈ closure.body, inner.node node)
    (waiting : StackObeys base inner stack) :
    (Config.invoke regime procedure arguments stack session).Obeys base inner := by
  cases procedure with
  | builtin b =>
    simp only [Config.invoke]
    split
    · split <;> exact ⟨trivial, waiting⟩
    · exact ⟨trivial, waiting⟩
  | closure c =>
    simp only [Config.invoke]
    split
    · exact statements c.name _ _ (entered c rfl) waiting
    · exact ⟨trivial, waiting⟩

theorem resume (value : Value) {frame : Frame} {stack : List Frame} (session : Session)
    (waiting : StackObeys base inner (frame :: stack)) :
    (Config.resume regime value frame stack session).Obeys base inner := by
  obtain ⟨obeyed, waiting⟩ := waiting
  cases frame with
  | next nodes scope =>
    cases nodes with
    | nil => exact ⟨trivial, waiting⟩
    | cons statement rest =>
      obtain ⟨now, later⟩ := List.forall_mem_cons.mp obeyed
      exact ⟨now, later, waiting⟩
  | head place arguments scope => exact call place value [] scope session obeyed waiting
  | argument place callee done rest scope => exact call place callee (value :: done) scope session obeyed waiting
  | test place thenBlock elseBlock scope =>
    simp only [Config.resume]
    split
    · exact ⟨obeyed.1, trivial, waiting⟩
    · exact ⟨obeyed.2, trivial, waiting⟩
  | loopTest loop iterations scope =>
    simp only [Config.resume]
    split
    · exact ⟨obeyed.2.1, obeyed, waiting⟩
    · exact ⟨obeyed.2.2, trivial, waiting⟩
  | loopBody loop iterations scope => exact ⟨obeyed.1, obeyed, waiting⟩
  | body name place rest scope => exact statements name scope session obeyed waiting
  | assign | invoking | branch | loopElse | give => exact ⟨trivial, waiting⟩

theorem unwind (escape : Escape) {frame : Frame} {stack : List Frame} (session : Session)
    (waiting : StackObeys base inner (frame :: stack)) :
    (Config.unwind regime escape frame stack session).Obeys base inner := by
  obtain ⟨_, waiting⟩ := waiting
  cases frame with
  | branch place taken => cases taken <;> exact ⟨trivial, waiting⟩
  | loopBody | body => cases escape <;> exact ⟨trivial, waiting⟩
  | next | head | argument | invoking | assign | test | loopTest | loopElse | give => exact ⟨trivial, waiting⟩

theorem step (baseLawful : base.Lawful) (innerLawful : inner.Lawful) {config next : Config}
    (entered : ∀ closure arguments, config.control = .invoke (.closure closure) arguments →
      ∀ node ∈ closure.body, inner.node node)
    (obeys : config.Obeys base inner) (stepped : config.stepUnder regime = .running next) :
    next.Obeys base inner := by
  obtain ⟨control, stack, session⟩ := config
  obtain ⟨obeyed, waiting⟩ := obeys
  cases control with
  | eval node scope =>
    cases stepped
    exact eval node scope _ (prevailing_lawful baseLawful innerLawful stack) obeyed waiting
  | block nodes scope =>
    cases nodes with
    | nil =>
      cases stepped
      exact ⟨trivial, waiting⟩
    | cons statement rest =>
      cases stepped
      obtain ⟨now, later⟩ := List.forall_mem_cons.mp obeyed
      exact ⟨now, later, waiting⟩
  | invoke procedure arguments =>
    cases stepped
    refine invoke session ?_ waiting
    rintro closure rfl
    exact entered closure arguments rfl
  | value value =>
    cases stack with
    | nil => cases stepped
    | cons frame stack =>
      cases stepped
      exact resume value session waiting
  | escape escape =>
    cases stack with
    | nil => cases stepped
    | cons frame stack =>
      cases stepped
      exact unwind escape session waiting

end Obeys
end Parlance
