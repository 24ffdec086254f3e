import Parlance.Indent
import Parlance.Span
import Parlance.StreamError

/-! Why a source cannot be cut into tokens. -/
namespace Parlance

inductive TokenError where
  | mixedIndentation (span : Span)
  | inconsistentIndentation (span : Span) (found unit : Indent)
  | indentJump (span : Span) (levels : Nat)
  | unreadable (source : String) (cause : StreamError)
deriving DecidableEq, Repr

def TokenError.message : TokenError → String
  | .mixedIndentation span => s!"Error at {span.describe}: Can not mix tabs and spaces in indentation."
  | .inconsistentIndentation span found unit =>
    s!"Error at {span.describe}: Wrong amount of indentation: found {found.describe}, " ++
      s!"but this file indents by {unit.describe}."
  | .indentJump span levels =>
    s!"Error at {span.describe}: Can not indent multiple levels at a time: " ++
      s!"you tried to indent {levels} levels."
  | .unreadable source cause => s!"Error reading {source}: {cause.message}."

end Parlance
