import Parlance.Program

/-! The interactive session. A line is a chunk of its own, unless it opens a block: then the chunk goes on to the first
blank line. Each chunk runs statement by statement, values are echoed, and an error ends its chunk only. -/
namespace Parlance

/-- A conversation over a session's streams. It stops when a stream fails, and answers nothing when the steps
granted to the programs run out. -/
abbrev Dialogue := ExceptT StreamError (StateT Session Option)

namespace Dialogue

def say (text : String) : Dialogue Unit := fun session =>
  match session with
  | ⟨arena, streams, log, sites⟩ =>
    let (result, streams) := streams.write text
    some (result, ⟨arena, streams, log, sites⟩)

/-- Writes to the error stream. -/
def complain (text : String) : Dialogue Unit := fun session =>
  match session with
  | ⟨arena, streams, log, sites⟩ =>
    let (result, streams) := streams.writeError text
    some (result, ⟨arena, streams, log.complain text, sites⟩)

def hear : Dialogue (Option String) := fun session =>
  match session with
  | ⟨arena, streams, log, sites⟩ =>
    let (result, streams) := streams.readLine
    some (result, ⟨arena, streams, log, sites⟩)

def note (events : List Event) : Dialogue Unit := fun session =>
  some (.ok (), session.noteAll events)

def evaluate (fuel : Nat) (node : Node) : Dialogue Outcome := fun session => do
  let (outcome, session) ← session.eval fuel node
  return (.ok outcome, session)

/-- No answer within the steps granted. -/
def exhausted {α : Type} : Dialogue α := fun _ => none

end Dialogue

namespace Prompt

open Dialogue

def banner : String :=
  "boomslang 0.1.0\nType a statement and press enter. A block ends at the first empty line."

def openers : List String :=
  ["if", "while", "by"]

def opensBlock (line : String) : Bool :=
  match Text.words line.toList with
  | [] => false
  | first :: _ => openers.contains first.text

/-- Adds lines to a chunk up to a blank one or the end of the input. -/
def readBlock (fuel : Nat) (chunk : String) : Dialogue String :=
  match fuel with
  | 0 => exhausted
  | fuel + 1 => do
    say ". "
    match ← hear with
    | none => return chunk
    | some line =>
      if Text.allBlank line.toList then return chunk else readBlock fuel (chunk ++ "\n" ++ line)

-- The names of what is read serve the termination argument.
set_option linter.unusedVariables false in
/-- Reads and evaluates statement after statement, to the end or the first error. -/
def runStatements (fuel : Nat) (tokens : List Token) : Dialogue Unit :=
  match next : Sentence.next? tokens with
  | none => pure ()
  | some (sentence, after) => do
    let parsed := Statement.read sentence after
    note parsed.events
    match parsed.result with
    | .error error => complain ((ProgramError.ungrammatical error).message ++ "\n")
    | .ok node =>
      match ← evaluate fuel node with
      | .error escape => complain ((ProgramError.ofEscape escape).message ++ "\n")
      | .ok value =>
        if value.isNothing then pure () else say s!"=> {value.describe}\n"
        runStatements fuel parsed.rest
termination_by tokens.length
decreasing_by
  have := Sentence.next?_shorter next
  have := (Statement.read sentence after).within.length_le
  omega

def runChunk (fuel : Nat) (name text : String) : Dialogue Unit := do
  let lexed := (Source.ofText name text).tokens
  note lexed.events
  match lexed.result with
  | .error error => complain ((ProgramError.unreadable error).message ++ "\n")
  | .ok tokens => runStatements fuel tokens

/-- Takes chunks to the end of the input. The result is how many there were, `chunks` of them before. -/
def runChunks (fuel : Nat) (chunks : Nat) : Dialogue Nat :=
  match fuel with
  | 0 => exhausted
  | fuel + 1 => do
    say "> "
    match ← hear with
    | none => return chunks
    | some line =>
      let text ← if opensBlock line then readBlock fuel line else pure line
      runChunk fuel s!"<repl:{chunks + 1}>" text
      runChunks fuel (chunks + 1)

def run (fuel : Nat) : Dialogue Unit := do
  say (banner ++ "\n")
  let chunks ← runChunks fuel 0
  say "\n"
  note [.promptEnded chunks]

end Prompt
end Parlance
