/-! The operator words, in the order in which an expression is split at them. -/
namespace Parlance

inductive Operator where
  | equals | notEquals | smallerThan | biggerThan | multiply | divides | plus | minus
deriving DecidableEq, Repr

namespace Operator

def spelling : Operator → String
  | .equals => "equals"
  | .notEquals => "notequals"
  | .smallerThan => "smallerthan"
  | .biggerThan => "biggerthan"
  | .multiply => "multiply"
  | .divides => "divides"
  | .plus => "plus"
  | .minus => "minus"

def all : List Operator :=
  [.equals, .notEquals, .smallerThan, .biggerThan, .multiply, .divides, .plus, .minus]

/-- The name under which an operator's procedure is bound. No program can write it, for its two spaces. -/
def procedureName (operator : Operator) : String :=
  "infix  " ++ operator.spelling

end Operator
end Parlance
