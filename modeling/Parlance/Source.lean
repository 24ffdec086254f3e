import Parlance.Text.Lines

/-! A program's source: a name for messages, and the lines as they are read. -/
namespace Parlance

structure Source where
  name : String
  lines : List RawLine
deriving DecidableEq, Repr

namespace Source

def ofText (name text : String) : Source :=
  ⟨name, RawLine.ofText text⟩

def ofBytes (name : String) (bytes : ByteArray) : Source :=
  ⟨name, RawLine.ofBytes bytes⟩

end Source
end Parlance
