import Parlance.Escape
import Parlance.Node.Error
import Parlance.Token
import Parlance.Token.Error

/-! Why a program did not run to its end, and the exit status that tells so. -/
namespace Parlance

namespace ExitCode

def badOptions : Nat := 10
def badFile : Nat := 11
def unreadable : Nat := 12
def ungrammatical : Nat := 13
def failed : Nat := 14
def stray : Nat := 15

end ExitCode

inductive ProgramError where
  | unreadable (error : TokenError)
  | ungrammatical (error : GrammarError)
  | failed (failure : Failure)
  /-- A `break` or `returns` that nothing stopped. -/
  | stray (keyword : Keyword)
deriving Repr

namespace ProgramError

def ofEscape : Escape → ProgramError
  | .failed failure => .failed failure
  | .broke => .stray .breakWord
  | .returned _ => .stray .returnsWord

def message : ProgramError → String
  | .unreadable error => s!"I could not read this program: {error.message}"
  | .ungrammatical error => s!"I could not understand this program: {error.message}"
  | .failed failure => s!"Failure occurred during runtime:\n{failure.message}"
  | .stray keyword =>
    s!"Internal error: '{keyword.spelling}' escaped to the top level of the program."

def exitCode : ProgramError → Nat
  | .unreadable _ => ExitCode.unreadable
  | .ungrammatical _ => ExitCode.ungrammatical
  | .failed _ => ExitCode.failed
  | .stray _ => ExitCode.stray

end ProgramError
end Parlance
