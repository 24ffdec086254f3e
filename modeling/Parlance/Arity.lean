/-! How many arguments a procedure takes. -/
namespace Parlance

inductive Arity where
  | exact (count : Nat)
  | oneOf (counts : List Nat)
  | any
deriving DecidableEq, Repr

namespace Arity

def allows (arity : Arity) (count : Nat) : Bool :=
  match arity with
  | .exact n => count == n
  | .oneOf counts => counts.contains count
  | .any => true

def describe : Arity → String
  | .exact 1 => "exactly 1 argument"
  | .exact n => s!"exactly {n} arguments"
  | .oneOf counts => " or ".intercalate (counts.map toString) ++ " arguments"
  | .any => "any number of arguments"

end Arity
end Parlance
