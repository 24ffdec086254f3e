/-! A place in a source, as messages name it. -/
namespace Parlance

structure Span where
  source : String
  line : Nat
deriving DecidableEq, Repr

def Span.describe (span : Span) : String :=
  s!"{span.source}:{span.line}"

end Parlance
