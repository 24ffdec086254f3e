import Parlance.Machine
import Parlance.Node.Statement
import Parlance.ProgramError
import Parlance.Token.Layout

/-! Running programs in a session. Everything that runs code takes a number of steps and answers nothing if the code
needs more. -/
namespace Parlance

namespace Session

/-- Runs statements in the root scope; the value is that of the last one. -/
def run (session : Session) (fuel : Nat) (program : List Node) : Option (Outcome × Session) :=
  let (program, session) := session.load program
  Config.run fuel ⟨.block program Arena.root, [], session⟩

/-- Evaluates one statement in the root scope. -/
def eval (session : Session) (fuel : Nat) (node : Node) : Option (Outcome × Session) :=
  let (node, sites) := node.number session.sites
  Config.run fuel ⟨.eval node Arena.root, [], { session with sites }⟩

def invoke (session : Session) (fuel : Nat) (procedure : Procedure) (arguments : List Value) :
    Option (Outcome × Session) :=
  Config.run fuel ⟨.invoke procedure arguments, [], session⟩

end Session

namespace Source

/-- The program in a source, as far as it can be read. -/
def program (source : Source) : Traced ProgramError (List Node) :=
  let lexed := source.tokens
  match lexed.result with
  | .error error => ⟨lexed.events, .error (.unreadable error)⟩
  | .ok tokens =>
    let parsed := Program.read tokens
    ⟨lexed.events ++ parsed.events, parsed.result.mapError .ungrammatical⟩

end Source

namespace Session

/-- Runs a source. Nothing of it runs unless all of it can be read. -/
def execute (session : Session) (fuel : Nat) (source : Source) :
    Option (Except ProgramError Value × Session) :=
  let read := source.program
  let session := session.noteAll read.events
  match read.result with
  | .error error => some (.error error, session)
  | .ok program => do
    let session := session.note (.programStarted source.name program.length)
    let (outcome, session) ← session.run fuel program
    return (outcome.mapError .ofEscape, session)

end Session

/-- Runs a program given as text in a session of its own, without input. -/
def Program.evaluate (fuel : Nat) (filter : Filter) (text : String) :
    Option (Except ProgramError Value × Session) :=
  (Session.start (.ofInput []) filter).execute fuel (.ofText "<input>" text)

end Parlance
