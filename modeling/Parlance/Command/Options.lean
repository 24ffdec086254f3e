import Parlance.Log.Event
import Parlance.Text.Split

/-! The command line's options. -/
namespace Parlance.Command

structure Options where
  file : Option String
  traced : List Target
  /-- Whether the value of the script is printed. -/
  pipeMode : Bool
deriving DecidableEq, Repr

def Options.initial : Options :=
  ⟨none, [], false⟩

inductive OptionError where
  | unexpected (argument : String)
  | unexpectedValue (option : String)
  | repeated (option : String)
  | unknownPhase (phase : String)
  | emptyFile
deriving DecidableEq, Repr

def OptionError.message : OptionError → String
  | .unexpected argument => s!"error: unexpected argument '{argument}' found"
  | .unexpectedValue option => s!"error: no value is allowed for '{option}'"
  | .repeated option => s!"error: the argument '{option}' cannot be used multiple times"
  | .unknownPhase phase => s!"error: invalid phase '{phase}': use all, lex, parse or eval"
  | .emptyFile => "error: the name of the file is empty"

/-- What the command line asks for. -/
inductive Request where
  | run (options : Options)
  | help
  | version
deriving DecidableEq, Repr

def phaseTargets? (phase : List Char) : Option (List Target) :=
  [("all", [Target.lex, .parse, .eval]), ("lex", [.lex]), ("parse", [.parse]), ("eval", [.eval])].findSome?
    fun (name, targets) => if name.toList = phase then some targets else none

def phases (text : List Char) : Except OptionError (List Target) :=
  (Text.splitOn ',' text).foldlM (fun targets phase =>
    match phaseTargets? phase with
    | some more => .ok (targets ++ more)
    | none => .error (.unknownPhase (String.ofList phase))) []

def usePipe (options : Options) : Except OptionError Options :=
  if options.pipeMode then .error (.repeated "--pipe-mode") else .ok { options with pipeMode := true }

def useFile (options : Options) (file : String) : Except OptionError Options :=
  if options.file.isSome then .error (.unexpected file)
  else if file.isEmpty then .error .emptyFile
  else .ok { options with file := some file }

/-- A request when an option settles the matter, else the options so far. -/
abbrev Reading := Except OptionError (Request ⊕ Options)

def readLong (options : Options) (name : List Char) (value : Option (List Char)) : Reading :=
  match String.ofList name, value with
  | "debug", none => .ok (.inr { options with traced := options.traced ++ [.lex, .parse, .eval] })
  | "debug", some text => do
    return .inr { options with traced := options.traced ++ (← phases text) }
  | "pipe-mode", none => do return .inr (← usePipe options)
  | "help", none => .ok (.inl .help)
  | "version", none => .ok (.inl .version)
  | "pipe-mode", some _ => .error (.unexpectedValue "--pipe-mode")
  | "help", some _ => .error (.unexpectedValue "--help")
  | "version", some _ => .error (.unexpectedValue "--version")
  | other, _ => .error (.unexpected ("--" ++ other))

def readShort (options : Options) : List Char → Reading
  | [] => .ok (.inr options)
  | 'p' :: rest => do readShort (← usePipe options) rest
  | 'h' :: _ => .ok (.inl .help)
  | 'V' :: _ => .ok (.inl .version)
  | c :: _ => .error (.unexpected (String.ofList ['-', c]))

/-- A long option's name and the value after its first `=`. -/
def splitLong (text : List Char) : List Char × Option (List Char) :=
  match text with
  | [] => ([], none)
  | '=' :: value => ([], some value)
  | c :: rest => let (name, value) := splitLong rest; (c :: name, value)

def readArgument (options : Options) (argument : String) : Reading :=
  match argument.toList with
  | '-' :: '-' :: long => let (name, value) := splitLong long; readLong options name value
  | '-' :: c :: rest => readShort options (c :: rest)
  | _ => do return .inr (← useFile options argument)

/-- Reads the arguments from left to right. After `--` all of them are files. -/
def readArguments (options : Options) : List String → Except OptionError Request
  | [] => .ok (.run options)
  | "--" :: files => do return .run (← files.foldlM useFile options)
  | argument :: rest => do
    match ← readArgument options argument with
    | .inl request => return request
    | .inr options => readArguments options rest

def request (arguments : List String) : Except OptionError Request :=
  readArguments .initial arguments

end Parlance.Command
