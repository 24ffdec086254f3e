import Parlance.Text.Split

/-! Paths, and what they lead to. -/
namespace Parlance.Command

/-- What is found at a path. -/
inductive Found where
  | file (bytes : ByteArray)
  | folder
  | unreadable (reason : String)

namespace Found

def missing : Found :=
  .unreadable "No such file or directory (os error 2)"

/-- The path goes on below a file. -/
def notFolder : Found :=
  .unreadable "Not a directory (os error 20)"

end Found

namespace Path

/-- Parts that lead nowhere new. -/
def isIdle (part : List Char) : Bool :=
  part = [] || part = ['.']

/-- The names on the way to a path's end. -/
def steps (path : String) : List (List Char) :=
  (Text.splitOn '/' path.toList).filter fun part => !isIdle part

/-- What follows the last dot of a path's last name, unless that dot comes first. -/
def extension? (path : String) : Option String :=
  match (steps path).getLast? with
  | none | some ['.', '.'] => none
  | some name =>
    let reversed := name.reverse
    let after := reversed.takeWhile (· ≠ '.')
    match reversed.drop after.length with
    | _dot :: _ :: _ => some (String.ofList after.reverse)
    | _ => none

end Path

/-- The files and folders of a working directory, by their paths from there. -/
structure Files where
  files : List (String × ByteArray)
  folders : List String

namespace Files

def file? (files : Files) (path : List (List Char)) : Option ByteArray :=
  (files.files.find? fun (name, _) => Path.steps name == path).map Prod.snd

/-- Folders are those named and those that something lies in. -/
def isFolder (files : Files) (path : List (List Char)) : Bool :=
  path.isEmpty || files.folders.any (fun name => path.isPrefixOf (Path.steps name)) ||
    files.files.any fun (name, _) => path.isPrefixOf (Path.steps name) && Path.steps name != path

def walk (files : Files) (current : List (List Char)) : List (List Char) → Found
  | [] => .folder
  | part :: rest =>
    if Path.isIdle part then walk files current rest
    else if part = ['.', '.'] then if current.isEmpty then .missing else walk files current.dropLast rest
    else if files.isFolder (current ++ [part]) then walk files (current ++ [part]) rest
    else match files.file? (current ++ [part]) with
      | none => .missing
      | some bytes => if rest.isEmpty then .file bytes else .notFolder

def find (files : Files) (path : String) : Found :=
  match path.toList with
  | '/' :: _ => .missing
  | text => walk files [] (Text.splitOn '/' text)

end Files
end Parlance.Command
