/-! Cutting a text, or the bytes of one, into lines. A line feed ends a line, one carriage return before it
belongs to the ending, and what follows the last line feed is a line unless it is empty. -/
namespace Parlance.Text

variable {α : Type} [DecidableEq α]

/-- `seen` is the current line so far, last symbol first. -/
def splitLinesFrom (feed ret : α) (seen : List α) : List α → List (List α)
  | [] => if seen.isEmpty then [] else [seen.reverse]
  | c :: rest =>
    if c = feed then
      (if seen.head? = some ret then seen.tail else seen).reverse :: splitLinesFrom feed ret [] rest
    else splitLinesFrom feed ret (c :: seen) rest

def splitLines (feed ret : α) (symbols : List α) : List (List α) :=
  splitLinesFrom feed ret [] symbols

end Parlance.Text

namespace Parlance

/-- A line as it was read: nothing where its bytes are not UTF-8. -/
abbrev RawLine := Option String

namespace RawLine

def ofText (text : String) : List RawLine :=
  (Text.splitLines '\n' '\r' text.toList).map fun line => some (String.ofList line)

def ofBytes (bytes : ByteArray) : List RawLine :=
  (Text.splitLines 10 13 bytes.data.toList).map fun line => String.fromUTF8? ⟨line.toArray⟩

end RawLine
end Parlance
