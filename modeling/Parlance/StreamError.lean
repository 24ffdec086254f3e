/-! What can go wrong with a stream. -/
namespace Parlance

inductive StreamError where
  /-- A line's bytes are not UTF-8. -/
  | garbled
  /-- A bounded sink has no room for all that is written. -/
  | full
deriving DecidableEq, Repr

def StreamError.message : StreamError → String
  | .garbled => "stream did not contain valid UTF-8"
  | .full => "sink is full"

end Parlance
