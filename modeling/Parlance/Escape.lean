import Parlance.StreamError
import Parlance.Value

/-! How the evaluation of a node ends early. A failure collects a trail of what was being done when it passed;
`break` and `returns` travel to the loop or procedure that stops them. -/
namespace Parlance

inductive Fault where
  | unknownName (name : String)
  | wrongType (expected : String) (value : Value)
  | badCall (details : String)
  | badTarget (label : String)
  | stream (details : String)
deriving Repr

namespace Fault

def ofStream (error : StreamError) : Fault :=
  .stream error.message

def message : Fault → String
  | .unknownName name =>
    s!"Sorry, I tried and failed to find the name '{name}' in the place you requested it."
  | .wrongType expected value => s!"Sorry, but this is not a valid {expected}: {value.describe}"
  | .badCall details => s!"Sorry, but I could not carry out this procedure call: {details}"
  | .badTarget label => s!"Sorry, but I can not assign to this {label}."
  | .stream details => s!"Sorry, but I could not talk to the outside world: {details}"

end Fault

/-- What a node was doing when a failure passed through it. -/
structure Activity where
  place : Place
  doing : String
deriving DecidableEq, Repr

def Activity.describe (activity : Activity) : String :=
  s!"while {activity.doing} ({activity.place.label}, line {activity.place.line})"

structure Failure where
  cause : Fault
  /-- The outermost activity first. -/
  trail : List Activity
deriving Repr

def Failure.message (failure : Failure) : String :=
  "\n  ".intercalate (failure.cause.message :: failure.trail.reverse.map Activity.describe)

inductive Escape where
  | failed (failure : Failure)
  | broke
  | returned (value : Value)
deriving Repr

namespace Escape

def ofFault (fault : Fault) : Escape :=
  .failed ⟨fault, []⟩

/-- The escape after it has passed a node. Only failures keep a trail. -/
def passing (escape : Escape) (place : Place) (doing : String) : Escape :=
  match escape with
  | .failed failure => .failed ⟨failure.cause, ⟨place, doing⟩ :: failure.trail⟩
  | other => other

def message : Escape → String
  | .failed failure => failure.message
  | .broke => "break"
  | .returned value => s!"returns {value.describe}"

end Escape

/-- How an evaluation ends. -/
abbrev Outcome := Except Escape Value

end Parlance
