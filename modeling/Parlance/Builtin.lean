import Parlance.Escape
import Parlance.Streams
import Parlance.Text.Blank
import Parlance.Value.Inspect

/-! The builtin procedures: what each does with its arguments and the streams, and the table under which they are
bound. -/
namespace Parlance

namespace Value

def expectNumber : Value → Except Fault Number
  | .number n => .ok n
  | other => .error (.wrongType "number" other)

/-- Whether two values are equal. Procedures cannot be compared. -/
def compare (left right : Value) : Except Fault Bool :=
  match left, right with
  | .procedure p, _ => .error (.wrongType "comparable value" (.procedure p))
  | _, .procedure p => .error (.wrongType "comparable value" (.procedure p))
  | _, _ => .ok (left.same right)

/-- The number that a value stands for. -/
def toNumber (value : Value) : Except Fault Number :=
  match value with
  | .number n => .ok n
  | .boolean b => .ok (if b then 1 else 0)
  | .text t =>
    match Number.read? (Text.trim t.toList) with
    | some n => .ok n
    | none => .error (.wrongType "number" value)
  | other => .error (.wrongType "number" other)

end Value

namespace Operator

def compute? (operator : Operator) (a b : Number) : Option Value :=
  match operator with
  | .plus => (Number.add? a b).map .number
  | .minus => (Number.sub? a b).map .number
  | .multiply => (Number.mul? a b).map .number
  | .divides => (Number.div? a b).map .number
  | .smallerThan => some (.boolean (a < b))
  | .biggerThan => some (.boolean (b < a))
  | .equals => some (.boolean (a = b))
  | .notEquals => some (.boolean (a ≠ b))

/-- Equality is of any two values but procedures; all other operators want numbers. -/
def apply (operator : Operator) (left right : Value) : Except Fault Value :=
  match operator with
  | .equals => do return .boolean (← left.compare right)
  | .notEquals => do return .boolean (!(← left.compare right))
  | _ => do
    let a ← left.expectNumber
    let b ← right.expectNumber
    match operator.compute? a b with
    | some value => .ok value
    | none =>
      .error (.badCall
        s!"{a.describe} {operator.spelling} {b.describe} has no result that fits in a number")

end Operator

namespace Action

def wrongCount (name : String) (expected got : Nat) : Fault :=
  .badCall s!"'{name}' expects {expected} arguments, but got {got}"

def expectCount (name : String) (arguments : List Value) (expected : Nat) : Except Fault Unit :=
  if arguments.length = expected then .ok () else .error (wrongCount name expected arguments.length)

/-- Writes, and gives `value` if that succeeds. -/
def writing (streams : Streams) (text : String) (value : Value) : Except Fault Value × Streams :=
  let (result, streams) := streams.write text
  (match result with
    | .ok () => .ok value
    | .error error => .error (.ofStream error), streams)

/-- Reads the answer to a question. -/
def answer (streams : Streams) : Except Fault Value × Streams :=
  let (result, streams) := streams.readLine
  (match result with
    | .ok (some line) => .ok (.text line)
    | .ok none => .error (.stream "the input ended before an answer was given")
    | .error error => .error (.ofStream error), streams)

def run (action : Action) (streams : Streams) (arguments : List Value) : Except Fault Value × Streams :=
  match action with
  | .display => writing streams (" ".intercalate (arguments.map Value.describe) ++ "\n") .nothing
  | .inspect =>
    writing streams (String.join (arguments.map fun a => a.inspect ++ "\n")) (arguments.headD .nothing)
  | .ask =>
    match arguments with
    | [] => answer streams
    | prompt :: _ =>
      match writing streams prompt.describe .nothing with
      | (.ok _, streams) => answer streams
      | (.error fault, streams) => (.error fault, streams)
  | .number =>
    match arguments with
    | [value] => (value.toNumber.map .number, streams)
    | _ => (.error (wrongCount "number" 1 arguments.length), streams)
  | .operate operator =>
    match arguments with
    | [left, right] => (operator.apply left right, streams)
    | _ => (.error (wrongCount operator.spelling 2 arguments.length), streams)

end Action

namespace Builtin

/-- The procedure behind an operator word. -/
def ofOperator (operator : Operator) : Builtin :=
  ⟨operator.procedureName, .exact 2, .operate operator⟩

def table : List Builtin :=
  [⟨"show", .any, .display⟩, ⟨"debug", .any, .inspect⟩, ⟨"ask", .oneOf [0, 1], .ask⟩,
    ⟨"number", .exact 1, .number⟩] ++ Operator.all.map ofOperator

end Builtin
end Parlance
