import Parlance.StreamError
import Parlance.Text.Lines

/-! The streams of a session: two sinks to write to and the lines still to be read. -/
namespace Parlance

/-- What has been written, and how many more bytes fit, if that is bounded. -/
structure Sink where
  written : String
  room : Option Nat
deriving DecidableEq, Repr

namespace Sink

def unbounded : Sink :=
  ⟨"", none⟩

def bounded (bytes : Nat) : Sink :=
  ⟨"", some bytes⟩

/-- The characters that fit in so many bytes. One that fits in part only shows as the replacement character. -/
def fitting (room : Nat) : List Char → List Char
  | [] => []
  | c :: rest =>
    if c.utf8Size ≤ room then c :: fitting (room - c.utf8Size) rest
    else if 0 < room then ['\uFFFD'] else []

/-- Writes what fits, and fails if that is not all. -/
def write (sink : Sink) (text : String) : Except StreamError Unit × Sink :=
  match sink with
  | ⟨written, none⟩ => (.ok (), ⟨written ++ text, none⟩)
  | ⟨written, some room⟩ =>
    if text.utf8ByteSize ≤ room then (.ok (), ⟨written ++ text, some (room - text.utf8ByteSize)⟩)
    else (.error .full, ⟨written ++ String.ofList (fitting room text.toList), some 0⟩)

end Sink

structure Streams where
  output : Sink
  error : Sink
  input : List RawLine
deriving DecidableEq, Repr

namespace Streams

def ofInput (input : List RawLine) : Streams :=
  ⟨.unbounded, .unbounded, input⟩

def write (streams : Streams) (text : String) : Except StreamError Unit × Streams :=
  match streams with
  | ⟨output, error, input⟩ =>
    let (result, output) := output.write text
    (result, ⟨output, error, input⟩)

def writeError (streams : Streams) (text : String) : Except StreamError Unit × Streams :=
  match streams with
  | ⟨output, error, input⟩ =>
    let (result, error) := error.write text
    (result, ⟨output, error, input⟩)

/-- The next line, or nothing at the end. A line that cannot be read is used up all the same. -/
def readLine (streams : Streams) : Except StreamError (Option String) × Streams :=
  match streams.input with
  | [] => (.ok none, streams)
  | none :: rest => (.error .garbled, { streams with input := rest })
  | some line :: rest => (.ok (some line), { streams with input := rest })

end Streams
end Parlance
