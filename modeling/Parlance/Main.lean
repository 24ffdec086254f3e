import Parlance.Command

/-! The program. It looks at the script's path, reads all of its input, and then does what the command line asks. -/
namespace Parlance.Main

open Command

/-- More steps than any program will see the end of. -/
def steps : Nat := 1000000000000000

def isFolder (path : String) : IO Bool := do
  try (← IO.FS.realPath path).isDir catch _ => return false

def find (path : String) : IO Found := do
  try return .file (← IO.FS.readBinFile path)
  catch
    | .noFileOrDirectory .. => return .missing
    | .inappropriateType .. => if ← isFolder path then return .folder else return .notFolder
    | error => return .unreadable (toString error)

partial def readAll (stream : IO.FS.Stream) (bytes : ByteArray) : IO ByteArray := do
  let more ← stream.read 4096
  if more.isEmpty then return bytes else readAll stream (bytes ++ more)

/-- What is found at the script's path. A command line that names none is not asked. -/
def script (arguments : List String) : IO Found := do
  match request arguments with
  | .ok (.run ⟨some path, _, _⟩) => find path
  | _ => return .missing

def input (arguments : List String) : IO ByteArray := do
  match request arguments with
  | .ok (.run _) => readAll (← IO.getStdin) ByteArray.empty
  | _ => return ByteArray.empty

end Parlance.Main

open Parlance in
def main (arguments : List String) : IO UInt32 := do
  let found ← Main.script arguments
  let input ← Main.input arguments
  let directives := (← IO.getEnv "RUST_LOG").getD ""
  match Command.run Main.steps ⟨fun _ => found, input, directives⟩ arguments with
  | none => return 1
  | some report =>
    IO.print report.output
    IO.eprint report.error
    return UInt32.ofNat report.exit
