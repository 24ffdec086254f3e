/-! Numbers are 64-bit integers. An operation whose exact result has no place among them has none at all. -/
namespace Parlance

abbrev Number := Int64

namespace Number

def ofInt? (n : Int) : Option Number :=
  if Int64.minValue.toInt ≤ n ∧ n ≤ Int64.maxValue.toInt then some (Int64.ofInt n) else none

def describe (n : Number) : String :=
  toString n.toInt

/-- The value of a nonempty run of ASCII digits. -/
def natural? (digits : List Char) : Option Nat :=
  if digits ≠ [] ∧ digits.all Char.isDigit then
    some (digits.foldl (fun n c => 10 * n + (c.toNat - '0'.toNat)) 0)
  else none

/-- Reads an optional sign and then digits only. -/
def read? (text : List Char) : Option Number :=
  match text with
  | '-' :: digits => natural? digits >>= fun n => ofInt? (-n)
  | '+' :: digits => natural? digits >>= fun n => ofInt? n
  | digits => natural? digits >>= fun n => ofInt? n

def add? (a b : Number) : Option Number :=
  ofInt? (a.toInt + b.toInt)

def sub? (a b : Number) : Option Number :=
  ofInt? (a.toInt - b.toInt)

def mul? (a b : Number) : Option Number :=
  ofInt? (a.toInt * b.toInt)

/-- The quotient, cut off toward zero. -/
def div? (a b : Number) : Option Number :=
  if b = 0 then none else ofInt? (a.toInt.tdiv b.toInt)

end Number
end Parlance
