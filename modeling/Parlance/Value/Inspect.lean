import Parlance.Node.Inspect
import Parlance.Value

/-! Values written out in full, the way `debug` shows them. -/
namespace Parlance

def Arity.inspect : Arity → String
  | .exact n => s!"Exact({n})"
  | .oneOf counts => "OneOf(" ++ Text.listed (counts.map toString) ++ ")"
  | .any => "Any"

def ScopeId.inspect (id : ScopeId) : String :=
  s!"ScopeId({id.index})"

def Builtin.inspect (builtin : Builtin) : String :=
  "NativeFunction \x7b name: " ++ Text.quoted builtin.name ++ ", arity: " ++ builtin.arity.inspect ++
    ", .. \x7d"

def Closure.inspect (closure : Closure) : String :=
  Text.record "Closure" [("name", Text.quoted closure.name),
    ("params", Text.listed (closure.params.map Text.quoted)),
    ("body", Text.listed (Node.inspectAll closure.body)), ("scope", closure.scope.inspect)]

def Procedure.inspect : Procedure → String
  | .builtin b => "Native(" ++ b.inspect ++ ")"
  | .closure c => "Closure(" ++ c.inspect ++ ")"

def Value.inspect : Value → String
  | .nothing => Literal.nothing.inspect
  | .boolean b => (Literal.boolean b).inspect
  | .number n => (Literal.number n).inspect
  | .text t => (Literal.text t).inspect
  | .procedure p => "Function(" ++ p.inspect ++ ")"

end Parlance
