import Parlance.Node
import Parlance.Text.Quoted

/-! Nodes written out in full, constructor by constructor, the way `debug` shows them. -/
namespace Parlance

namespace Text

def listed (items : List String) : String :=
  "[" ++ ", ".intercalate items ++ "]"

/-- A constructor with named fields. -/
def record (name : String) (fields : List (String × String)) : String :=
  name ++ " \x7b " ++ ", ".intercalate (fields.map fun (field, value) => field ++ ": " ++ value) ++ " \x7d"

end Text

def Literal.inspect : Literal → String
  | .nothing => "Nil"
  | .boolean true => "Bool(true)"
  | .boolean false => "Bool(false)"
  | .number n => "Integer(" ++ n.describe ++ ")"
  | .text t => "Text(" ++ Text.quoted t ++ ")"

namespace Node

mutual

def inspect : Node → String
  | .call callee arguments line =>
    Text.record "Call" [("callee", callee.inspect), ("arguments", Text.listed (inspectAll arguments)),
      ("line", toString line)]
  | .identifier name line =>
    Text.record "Identifier" [("name", Text.quoted name), ("line", toString line)]
  | .literal value line => Text.record "Literal" [("value", value.inspect), ("line", toString line)]
  | .assignment target value line =>
    Text.record "Assignment" [("target", target.inspect), ("value", value.inspect),
      ("line", toString line)]
  | .conditional condition thenBlock elseBlock line =>
    Text.record "If" [("condition", condition.inspect),
      ("then_block", Text.listed (inspectAll thenBlock)),
      ("else_block", Text.listed (inspectAll elseBlock)), ("line", toString line)]
  | .loop condition body otherwise line =>
    Text.record "Loop" [("condition", condition.inspect), ("body", Text.listed (inspectAll body)),
      ("otherwise", Text.listed (inspectAll otherwise)), ("line", toString line)]
  | .breaks line => Text.record "Break" [("line", toString line)]
  | .definition name params body _ line =>
    "FunctionDef(" ++ Text.record "FunctionDef" [("name", Text.quoted name),
      ("params", Text.listed (params.map Text.quoted)), ("body", Text.listed (inspectAll body)),
      ("line", toString line)] ++ ")"
  | .returns value line =>
    Text.record "Return" [("value", value.inspect), ("line", toString line)]

def inspectAll : List Node → List String
  | [] => []
  | node :: rest => node.inspect :: inspectAll rest

end

end Node
end Parlance
