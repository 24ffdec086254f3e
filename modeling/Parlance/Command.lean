import Parlance.Command.Files
import Parlance.Command.Options
import Parlance.Log.Directive
import Parlance.Prompt

/-! The command line: a script to run, or an interactive session if none is named. -/
namespace Parlance.Command

def version : String :=
  "boomslang 0.1.0"

def usage : String :=
  "Usage: boomslang [OPTIONS] [FILE]\n\n" ++
    "Arguments:\n  [FILE]  The script to run; without one, statements are read from the input\n\n" ++
    "Options:\n" ++
    "      --debug[=<PHASES>]  Log these phases: all, lex, parse, eval\n" ++
    "  -p, --pipe-mode         Print the value of the script's last statement\n" ++
    "  -h, --help              Print help\n" ++
    "  -V, --version           Print version\n"

/-- What the process leaves behind. -/
structure Report where
  exit : Nat
  output : String
  error : String
deriving DecidableEq, Repr

/-- What the command line finds around it. -/
structure Surroundings where
  find : String → Found
  input : ByteArray
  /-- The text of the log's directives. -/
  directives : String

/-- An entry as it appears on the error stream; levels are padded to one width. -/
def entryText : Entry → String
  | .event event =>
    let level := event.level.name
    let padding := String.ofList (List.replicate (5 - level.length) ' ')
    s!"[{level}{padding} {event.target.name}] {event.message}\n"
  | .complaint text => text

def errorText (log : Log) : String :=
  String.join (log.entries.reverse.map entryText)

/-- The script at a path, or why there is none. -/
def script (surroundings : Surroundings) (path : String) : Except String Source :=
  if Path.extension? path ≠ some "bs" then
    .error s!"'{path}' is not a boomslang script. Scripts end in '.bs'."
  else
    match surroundings.find path with
    | .file bytes => .ok (.ofBytes path bytes)
    | .folder => .error s!"'{path}' is a directory, not a script."
    | .unreadable reason =>
      .error s!"Failed to read the input file '{path}': {reason}. Perhaps this file does not exist?"

def report (warnings : String) (session : Session) (exit : Nat) (last : String) : Report :=
  ⟨exit, session.streams.output.written, warnings ++ errorText session.log ++ last⟩

def runScript (fuel : Nat) (session : Session) (pipeMode : Bool) (warnings : String) (source : Source) :
    Option Report := do
  let (result, session) ← session.execute fuel source
  match result with
  | .error error => return report warnings session error.exitCode (error.message ++ "\n")
  | .ok value =>
    let shown := if pipeMode && !value.isNothing then value.describe ++ "\n" else ""
    let (_, streams) := session.streams.write shown
    return report warnings { session with streams } 0 ""

def runPrompt (fuel : Nat) (session : Session) (warnings : String) : Option Report := do
  let (result, session) ← Prompt.run fuel session
  match result with
  | .ok () => return report warnings session 0 ""
  | .error error =>
    return report warnings session 1 s!"The interactive session failed: {error.message}\n"

def runOptions (fuel : Nat) (surroundings : Surroundings) (options : Options) : Option Report :=
  let (directives, warnings) := Directive.readAll surroundings.directives
  let warnings := String.join warnings
  let filter := Directive.filter (Directive.withTargets directives options.traced)
  let session := Session.start (.ofInput (RawLine.ofBytes surroundings.input)) filter
  match options.file with
  | none => runPrompt fuel session warnings
  | some path =>
    match script surroundings path with
    | .error message => some (report warnings session ExitCode.badFile (message ++ "\n"))
    | .ok source => runScript fuel session options.pipeMode warnings source

/-- Carries the command line out, in at most so many steps for each program. -/
def run (fuel : Nat) (surroundings : Surroundings) (arguments : List String) : Option Report :=
  match request arguments with
  | .error error => some ⟨ExitCode.badOptions, "", error.message ++ "\n"⟩
  | .ok .help => some ⟨0, usage, ""⟩
  | .ok .version => some ⟨0, version ++ "\n", ""⟩
  | .ok (.run options) => runOptions fuel surroundings options

end Parlance.Command
