import Parlance.Session

/-! Evaluation, one step at a time. A configuration holds what is being evaluated, a stack of frames that wait for its
outcome, and the session. A value wakes the topmost frame; an escape passes through it, unless the frame stops it. A run is
a number of steps, so an endless program is one that no number of steps finishes. -/
namespace Parlance

/-- What evaluation leaves to others: what becomes of a scope when its invocation ends, and what the builtins do. -/
structure Regime where
  close : Session → ScopeId → Session
  act : Session → Action → List Value → Except Fault Value × Session

/-- Scopes are given back, and builtins act on the session's streams. -/
def Regime.usual : Regime :=
  ⟨Session.closeScope, Session.act⟩

/-- A loop whose turn it is, as its frames remember it. -/
structure Loop where
  condition : Node
  body : List Node
  otherwise : List Node
  line : Nat
deriving Repr

def Loop.place (loop : Loop) : Place :=
  ⟨"while loop", loop.line⟩

inductive Control where
  | eval (node : Node) (scope : ScopeId)
  | block (statements : List Node) (scope : ScopeId)
  | invoke (procedure : Procedure) (arguments : List Value)
  | value (value : Value)
  | escape (escape : Escape)
deriving Repr

inductive Frame where
  /-- The statements of a block that come next. -/
  | next (statements : List Node) (scope : ScopeId)
  | head (call : Place) (arguments : List Node) (scope : ScopeId)
  /-- The arguments evaluated so far, the last one first, and those to come. -/
  | argument (call : Place) (callee : Value) (done : List Value) (rest : List Node) (scope : ScopeId)
  | invoking (call : Place) (procedure : Procedure)
  | assign (assignment : Place) (name : String) (scope : ScopeId)
  | test (conditional : Place) (thenBlock elseBlock : List Node) (scope : ScopeId)
  | branch (conditional : Place) (taken : Bool)
  | loopTest (loop : Loop) (iterations : Nat) (scope : ScopeId)
  | loopBody (loop : Loop) (iterations : Nat) (scope : ScopeId)
  | loopElse (loop : Loop)
  | give (returns : Place)
  /-- A procedure at work on a statement, with those that come next; the scope is its own. -/
  | body (name : String) (statement : Place) (rest : List Node) (scope : ScopeId)
deriving Repr

structure Config where
  control : Control
  stack : List Frame
  session : Session

inductive Progress where
  | running (config : Config)
  | finished (outcome : Outcome) (session : Session)

namespace Config

def fault (fault : Fault) (stack : List Frame) (session : Session) : Config :=
  ⟨.escape (.ofFault fault), stack, session⟩

/-- Begins a node. -/
def eval (node : Node) (scope : ScopeId) (stack : List Frame) (session : Session) : Config :=
  match node with
  | .call callee arguments _ => ⟨.eval callee scope, .head node.place arguments scope :: stack, session⟩
  | .identifier name _ =>
    match session.lookup scope name with
    | some value => ⟨.value value, stack, session⟩
    | none => fault (.unknownName name) stack session
  | .literal value _ => ⟨.value (.ofLiteral value), stack, session⟩
  | .assignment (.identifier name _) value _ =>
    ⟨.eval value scope, .assign node.place name scope :: stack, session⟩
  | .assignment target _ _ => fault (.badTarget target.label) stack session
  | .conditional condition thenBlock elseBlock _ =>
    ⟨.eval condition scope, .test node.place thenBlock elseBlock scope :: stack, session⟩
  | .loop condition body otherwise line =>
    ⟨.eval condition scope, .loopTest ⟨condition, body, otherwise, line⟩ 0 scope :: stack, session⟩
  | .breaks _ => ⟨.escape .broke, stack, session⟩
  | .definition name params body site _ =>
    ⟨.value .nothing, stack,
      (session.capture scope).define scope name
        (.procedure (.closure ⟨name, params, body, site, scope⟩))⟩
  | .returns value _ => ⟨.eval value scope, .give node.place :: stack, session⟩

/-- Goes on with a call after its callee and some arguments are known. Only when all are is the callee looked at. -/
def call (place : Place) (callee : Value) (done : List Value) (rest : List Node) (scope : ScopeId)
    (stack : List Frame) (session : Session) : Config :=
  match rest with
  | argument :: rest => ⟨.eval argument scope, .argument place callee done rest scope :: stack, session⟩
  | [] =>
    match callee with
    | .procedure procedure =>
      ⟨.invoke procedure done.reverse, .invoking place procedure :: stack, session⟩
    | other =>
      fault (.badCall
        s!"{other.describe} is a {other.kind}, not a procedure, so it can not be invoked") stack session

/-- Goes on with the body of a procedure, and closes its scope at the end. -/
def statements (regime : Regime) (name : String) (rest : List Node) (scope : ScopeId) (stack : List Frame)
    (session : Session) : Config :=
  match rest with
  | statement :: rest => ⟨.eval statement scope, .body name statement.place rest scope :: stack, session⟩
  | [] => ⟨.value .nothing, stack, regime.close session scope⟩

def invoke (regime : Regime) (procedure : Procedure) (arguments : List Value) (stack : List Frame)
    (session : Session) : Config :=
  match procedure with
  | .builtin b =>
    if b.arity.allows arguments.length then
      match regime.act session b.action arguments with
      | (.ok value, session) => ⟨.value value, stack, session⟩
      | (.error error, session) => fault error stack session
    else
      fault (.badCall s!"'{b.name}' expects {b.arity.describe}, but got {arguments.length}") stack session
  | .closure c =>
    if arguments.length = c.params.length then
      let (scope, session) := session.openScope c.scope
      let session := session.defineAll scope (c.params.zip arguments)
      statements regime c.name c.body scope stack (session.note (.invoking c.name scope))
    else
      fault (.badCall
        s!"'{c.name}' expects {(Arity.exact c.params.length).describe}, but got {arguments.length}")
        stack session

/-- A frame receives the value it waited for. -/
def resume (regime : Regime) (value : Value) (frame : Frame) (stack : List Frame) (session : Session) :
    Config :=
  match frame with
  | .next [] _ => ⟨.value value, stack, session⟩
  | .next (statement :: rest) scope => ⟨.eval statement scope, .next rest scope :: stack, session⟩
  | .head place arguments scope => call place value [] arguments scope stack session
  | .argument place callee done rest scope => call place callee (value :: done) rest scope stack session
  | .invoking .. => ⟨.value value, stack, session⟩
  | .assign _ name scope => ⟨.value .nothing, stack, session.define scope name value⟩
  | .test place thenBlock elseBlock scope =>
    if value.isTruthy then ⟨.block thenBlock scope, .branch place true :: stack, session⟩
    else ⟨.block elseBlock scope, .branch place false :: stack, session⟩
  | .branch .. => ⟨.value value, stack, session⟩
  | .loopTest loop iterations scope =>
    if value.isTruthy then ⟨.block loop.body scope, .loopBody loop iterations scope :: stack, session⟩
    else
      ⟨.block loop.otherwise scope, .loopElse loop :: stack,
        session.note (.loopFinished loop.line iterations)⟩
  | .loopBody loop iterations scope =>
    ⟨.eval loop.condition scope, .loopTest loop (iterations + 1) scope :: stack, session⟩
  | .loopElse _ => ⟨.value .nothing, stack, session⟩
  | .give _ => ⟨.escape (.returned value), stack, session⟩
  | .body name _ rest scope => statements regime name rest scope stack session

/-- An escape reaches a frame. Loops stop `break`, procedures stop `returns`, and a procedure does not let `break` out. -/
def unwind (regime : Regime) (escape : Escape) (frame : Frame) (stack : List Frame) (session : Session) :
    Config :=
  match frame with
  | .next .. => ⟨.escape escape, stack, session⟩
  | .head place .. => ⟨.escape (escape.passing place "evaluating head expression"), stack, session⟩
  | .argument place _ done .. =>
    ⟨.escape (escape.passing place s!"getting the value of argument {done.length + 1}"), stack, session⟩
  | .invoking place procedure =>
    ⟨.escape (escape.passing place s!"invoking {procedure.describe}"), stack, session⟩
  | .assign place name _ =>
    ⟨.escape (escape.passing place s!"computing the value of '{name}'"), stack, session⟩
  | .test place .. => ⟨.escape (escape.passing place "evaluating the condition"), stack, session⟩
  | .branch place true => ⟨.escape (escape.passing place "running the branch taken"), stack, session⟩
  | .branch place false => ⟨.escape (escape.passing place "running the otherwise branch"), stack, session⟩
  | .loopTest loop .. =>
    ⟨.escape (escape.passing loop.place "evaluating the loop condition"), stack, session⟩
  | .loopBody loop iterations _ =>
    match escape with
    | .broke => ⟨.value .nothing, stack, session.note (.loopBroken loop.line iterations)⟩
    | other => ⟨.escape (other.passing loop.place "running the loop body"), stack, session⟩
  | .loopElse loop =>
    ⟨.escape (escape.passing loop.place "running the otherwise block"), stack, session⟩
  | .give place => ⟨.escape (escape.passing place "computing the returned value"), stack, session⟩
  | .body name place _ scope =>
    match escape with
    | .returned value => ⟨.value value, stack, regime.close session scope⟩
    | .broke =>
      fault (.badCall "'break' can only be used inside a loop") stack (regime.close session scope)
    | other =>
      ⟨.escape (other.passing place s!"running procedure '{name}'"), stack, regime.close session scope⟩

def stepUnder (regime : Regime) (config : Config) : Progress :=
  match config with
  | ⟨.eval node scope, stack, session⟩ =>
    .running (eval node scope stack (session.note (.evaluating node)))
  | ⟨.block [] _, stack, session⟩ => .running ⟨.value .nothing, stack, session⟩
  | ⟨.block (statement :: rest) scope, stack, session⟩ =>
    .running ⟨.eval statement scope, .next rest scope :: stack, session⟩
  | ⟨.invoke procedure arguments, stack, session⟩ =>
    .running (invoke regime procedure arguments stack session)
  | ⟨.value value, frame :: stack, session⟩ => .running (resume regime value frame stack session)
  | ⟨.value value, [], session⟩ => .finished (.ok value) session
  | ⟨.escape escape, frame :: stack, session⟩ => .running (unwind regime escape frame stack session)
  | ⟨.escape escape, [], session⟩ => .finished (.error escape) session

/-- The outcome after at most `fuel` steps. -/
def runUnder (regime : Regime) (fuel : Nat) (config : Config) : Option (Outcome × Session) :=
  match fuel with
  | 0 => none
  | fuel + 1 =>
    match config.stepUnder regime with
    | .running config => config.runUnder regime fuel
    | .finished outcome session => some (outcome, session)

def step (config : Config) : Progress :=
  config.stepUnder .usual

def run (fuel : Nat) (config : Config) : Option (Outcome × Session) :=
  config.runUnder .usual fuel

end Config
end Parlance
