/-! The indentation of a line: how many tabs and spaces stand before its text, in whatever order. -/
namespace Parlance

structure Indent where
  tabs : Nat
  spaces : Nat
deriving DecidableEq, Repr

namespace Indent

/-- The indentation of a line, and the text after it. -/
def measure : List Char → Indent × List Char
  | '\t' :: rest => let (indent, text) := measure rest; (⟨indent.tabs + 1, indent.spaces⟩, text)
  | ' ' :: rest => let (indent, text) := measure rest; (⟨indent.tabs, indent.spaces + 1⟩, text)
  | text => (⟨0, 0⟩, text)

def isZero (indent : Indent) : Bool :=
  indent.tabs == 0 && indent.spaces == 0

def isMixed (indent : Indent) : Bool :=
  0 < indent.tabs && 0 < indent.spaces

def counted (n : Nat) (noun : String) : String :=
  if n = 1 then s!"{n} {noun}" else s!"{n} {noun}s"

def describe (indent : Indent) : String :=
  if indent.tabs = 0 then counted indent.spaces "space"
  else if indent.spaces = 0 then counted indent.tabs "tab"
  else counted indent.tabs "tab" ++ " and " ++ counted indent.spaces "space"

/-- Why an indentation is no whole number of units. -/
inductive Misfit where
  | mixed
  | inconsistent
deriving DecidableEq, Repr

/-- How many units the indentation holds. Both must be of one kind, tabs or spaces. -/
def units (indent unit : Indent) : Except Misfit Nat :=
  if indent.isMixed then .error .mixed
  else if unit.tabs = 0 ∧ indent.tabs = 0 then whole indent.spaces unit.spaces
  else if unit.spaces = 0 ∧ indent.spaces = 0 then whole indent.tabs unit.tabs
  else .error .mixed
where
  whole (amount step : Nat) : Except Misfit Nat :=
    if amount % step = 0 then .ok (amount / step) else .error .inconsistent

end Indent
end Parlance
