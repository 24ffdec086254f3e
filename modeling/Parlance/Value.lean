import Parlance.Arity
import Parlance.Node
import Parlance.Operator
import Parlance.ScopeId

/-! What expressions evaluate to. A procedure is one of the builtin ones or a closure: a definition together with the
scope in which it was carried out. -/
namespace Parlance

/-- What a builtin procedure does. -/
inductive Action where
  | display
  | inspect
  | ask
  | number
  | operate (operator : Operator)
deriving DecidableEq, Repr

structure Builtin where
  name : String
  arity : Arity
  action : Action
deriving DecidableEq, Repr

structure Closure where
  name : String
  params : List String
  body : List Node
  /-- Which definition the closure comes from. -/
  site : Nat
  scope : ScopeId
deriving Repr

inductive Procedure where
  | builtin (builtin : Builtin)
  | closure (closure : Closure)
deriving Repr

namespace Procedure

def name : Procedure → String
  | .builtin b => b.name
  | .closure c => c.name

def describe : Procedure → String
  | .builtin b => s!"<builtin procedure '{b.name}'>"
  | .closure c => s!"<procedure '{c.name}'>"

/-- Builtins are told apart by name, closures by name, scope and definition. -/
def same : Procedure → Procedure → Bool
  | .builtin a, .builtin b => a.name == b.name
  | .closure a, .closure b => a.name == b.name && a.site == b.site && a.scope == b.scope
  | _, _ => false

end Procedure

inductive Value where
  | nothing
  | boolean (value : Bool)
  | number (value : Number)
  | text (value : String)
  | procedure (value : Procedure)
deriving Repr

namespace Value

def ofLiteral : Literal → Value
  | .nothing => .nothing
  | .boolean b => .boolean b
  | .number n => .number n
  | .text t => .text t

def describe : Value → String
  | .nothing => "nothing"
  | .boolean true => "true"
  | .boolean false => "false"
  | .number n => n.describe
  | .text t => t
  | .procedure p => p.describe

def kind : Value → String
  | .nothing => "nothing"
  | .boolean _ => "boolean"
  | .number _ => "number"
  | .text _ => "text"
  | .procedure _ => "procedure"

/-- A condition holds for `true`, positive numbers, nonempty texts and procedures. -/
def isTruthy : Value → Bool
  | .nothing => false
  | .boolean b => b
  | .number n => 0 < n
  | .text t => t ≠ ""
  | .procedure _ => true

def isNothing : Value → Bool
  | .nothing => true
  | _ => false

def same : Value → Value → Bool
  | .nothing, .nothing => true
  | .boolean a, .boolean b => a == b
  | .number a, .number b => a == b
  | .text a, .text b => a == b
  | .procedure a, .procedure b => a.same b
  | _, _ => false

end Value
end Parlance
