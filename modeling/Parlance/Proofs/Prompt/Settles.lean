import Parlance.Prompt
import Parlance.Proofs.Machine.Abreast
import Parlance.Proofs.Machine.Course

/-! Chunks that come to their end, with the number of steps left out. Where no sink is bounded nothing that is said fails,
so a chunk is settled statement by statement, to the end of it or to the first problem, which goes to the error stream. -/
namespace Parlance

/-- Neither sink is bounded. -/
structure Streams.Roomy (streams : Streams) : Prop where
  output : streams.output.room = none
  error : streams.error.room = none

theorem Streams.congruent_roomy : Streams.Congruent fun first second => first.Roomy ∧ second = first := by
  refine ⟨?_, ?_⟩
  · rintro ⟨⟨written, _⟩, error, input⟩ _ text ⟨⟨rfl, room⟩, rfl⟩
    exact ⟨rfl, ⟨rfl, room⟩, rfl⟩
  · rintro ⟨output, error, _ | ⟨_ | line, rest⟩⟩ _ ⟨⟨first, second⟩, rfl⟩ <;> exact ⟨rfl, ⟨first, second⟩, rfl⟩

namespace Session

variable {session after : Session}

/-- The session after a text has gone to the output. -/
def said (session : Session) (text : String) : Session :=
  { session with streams := { session.streams with output := ⟨session.streams.output.written ++ text, none⟩ } }

/-- The session after a text has gone to the error stream. -/
def complained (session : Session) (text : String) : Session :=
  { session with
    streams := { session.streams with error := ⟨session.streams.error.written ++ text, none⟩ }
    log := session.log.complain text }

def Roomy (session : Session) : Prop :=
  session.streams.Roomy

theorem Roomy.said (roomy : session.Roomy) (text : String) : (session.said text).Roomy :=
  ⟨rfl, roomy.error⟩

theorem Roomy.complained (roomy : session.Roomy) (text : String) : (session.complained text).Roomy :=
  ⟨roomy.output, rfl⟩

theorem Roomy.noted (roomy : session.Roomy) (events : List Event) : (session.noteAll events).Roomy :=
  ⟨roomy.output, roomy.error⟩

theorem Roomy.said_nothing (roomy : session.Roomy) : session.said "" = session := by
  obtain ⟨arena, ⟨⟨written, room⟩, error, input⟩, log, sites⟩ := session
  obtain ⟨rfl, _⟩ := roomy
  simp [Session.said]

/-- Where the evaluation of a statement begins. -/
def evaluating (session : Session) (node : Node) : Config :=
  ⟨.eval (node.number session.sites).1 Arena.root, [], { session with sites := (node.number session.sites).2 }⟩

/-- A statement, evaluated in the root scope, comes to an end and has passed through these configurations. -/
def Evaluates (session : Session) (node : Node) (passed : List Config) (outcome : Outcome) (after : Session) : Prop :=
  ∃ fuel, session.eval fuel node = some (outcome, after) ∧ passed = (session.evaluating node).course fuel

theorem Evaluates.ends {node : Node} {passed : List Config} {outcome : Outcome}
    (evaluates : session.Evaluates node passed outcome after) : (session.evaluating node).Ends outcome after := by
  obtain ⟨fuel, ran, _⟩ := evaluates
  exact ⟨fuel, ran⟩

theorem eval_more {node : Node} {outcome : Outcome} {fuel more : Nat} (ran : session.eval fuel node = some (outcome, after))
    (le : fuel ≤ more) : session.eval more node = some (outcome, after) :=
  Config.run_more ran le

theorem Roomy.evaluated (roomy : session.Roomy) {node : Node} {passed : List Config} {outcome : Outcome}
    (evaluates : session.Evaluates node passed outcome after) : after.Roomy := by
  have alone : Config.Abreast (fun first second => first.Roomy ∧ second = first) (session.evaluating node)
      (session.evaluating node) := ⟨rfl, rfl, rfl, roomy, rfl⟩
  obtain ⟨last, _, abreast⟩ := alone.ends Streams.congruent_roomy evaluates.ends
  exact abreast.streams.1

end Session

namespace Dialogue

variable {α β : Type} {session middle : Session}

theorem bind_ok {dialogue : Dialogue α} {a : α} (reached : dialogue session = some (.ok a, middle)) (next : α → Dialogue β) :
    (dialogue >>= next) session = next a middle := by
  show (dialogue session).bind _ = _
  rw [reached]
  rfl

theorem bind_none {dialogue : Dialogue α} (endless : dialogue session = none) (next : α → Dialogue β) :
    (dialogue >>= next) session = none := by
  show (dialogue session).bind _ = _
  rw [endless]
  rfl

/-- What is reached with any number of steps that suffices is one session. -/
theorem reached_unique {dialogue : Nat → Dialogue α} {a b : α} {first second : Session}
    (reached : ∃ fuel, ∀ more, fuel ≤ more → dialogue more session = some (.ok a, first))
    (again : ∃ fuel, ∀ more, fuel ≤ more → dialogue more session = some (.ok b, second)) : first = second := by
  obtain ⟨fuel, ran⟩ := reached
  obtain ⟨more, reran⟩ := again
  have here := ran (max fuel more) (Nat.le_max_left ..)
  have there := reran (max fuel more) (Nat.le_max_right ..)
  exact (Prod.mk.inj (Option.some.inj (here.symm.trans there))).2

theorem say_roomy (roomy : session.Roomy) (text : String) : say text session = some (.ok (), session.said text) := by
  obtain ⟨arena, ⟨⟨written, room⟩, error, input⟩, log, sites⟩ := session
  obtain ⟨rfl, _⟩ := roomy
  rfl

theorem complain_roomy (roomy : session.Roomy) (text : String) :
    complain text session = some (.ok (), session.complained text) := by
  obtain ⟨arena, ⟨output, ⟨written, room⟩, input⟩, log, sites⟩ := session
  obtain ⟨_, rfl⟩ := roomy
  rfl

theorem evaluate_some {node : Node} {outcome : Outcome} {fuel : Nat}
    (ran : session.eval fuel node = some (outcome, middle)) : evaluate fuel node session = some (.ok outcome, middle) := by
  show (session.eval fuel node).bind _ = _
  rw [ran]
  rfl

theorem evaluate_none {node : Node} {fuel : Nat} (endless : session.eval fuel node = none) :
    evaluate fuel node session = none := by
  show (session.eval fuel node).bind _ = _
  rw [endless]
  rfl

end Dialogue

namespace Prompt

open Dialogue

/-- What the prompt says of the value of a statement. -/
def echo (value : Value) : String :=
  if value.isNothing then "" else s!"=> {value.describe}\n"

/-- What the prompt says of a problem. -/
def complaint (error : ProgramError) : String :=
  error.message ++ "\n"

/-- What becomes of a session by the statements that tokens make, and the configurations that their evaluation passes
through. -/
inductive Settles : List Token → Session → List Config → Session → Prop
  | done {tokens : List Token} (session : Session) (atEnd : Sentence.next? tokens = none) :
      Settles tokens session [] session
  | stuck {tokens after : List Token} {sentence : Sentence} {error : GrammarError} (session : Session)
      (next : Sentence.next? tokens = some (sentence, after))
      (misread : (Statement.read sentence after).result = .error error) :
      Settles tokens session []
        ((session.noteAll (Statement.read sentence after).events).complained (complaint (.ungrammatical error)))
  | failed {tokens after : List Token} {sentence : Sentence} {node : Node} {session middle : Session} {escape : Escape}
      {passed : List Config} (next : Sentence.next? tokens = some (sentence, after))
      (read : (Statement.read sentence after).result = .ok node)
      (evaluates : (session.noteAll (Statement.read sentence after).events).Evaluates node passed (.error escape) middle) :
      Settles tokens session passed (middle.complained (complaint (.ofEscape escape)))
  | passed {tokens after : List Token} {sentence : Sentence} {node : Node} {session middle final : Session} {value : Value}
      {passed later : List Config} (next : Sentence.next? tokens = some (sentence, after))
      (read : (Statement.read sentence after).result = .ok node)
      (evaluates : (session.noteAll (Statement.read sentence after).events).Evaluates node passed (.ok value) middle)
      (rest : Settles (Statement.read sentence after).rest (middle.said (echo value)) later final) :
      Settles tokens session (passed ++ later) final

variable {tokens after : List Token} {sentence : Sentence} {session middle final : Session} {fuel : Nat} {node : Node}
  {passed : List Config}

theorem runStatements_done (atEnd : Sentence.next? tokens = none) (fuel : Nat) :
    runStatements fuel tokens session = some (.ok (), session) := by
  have same : runStatements fuel tokens = pure () := by
    rw [runStatements]
    split
    · rfl
    · rename_i found
      cases atEnd.symm.trans found
  rw [same]
  rfl

/-- How a chunk goes on once a statement has been evaluated. -/
def follow (fuel : Nat) (rest : List Token) : Outcome → Dialogue Unit
  | .error escape => complain (complaint (.ofEscape escape))
  | .ok value => (if value.isNothing then pure () else say s!"=> {value.describe}\n") >>= fun _ => runStatements fuel rest

theorem runStatements_read (next : Sentence.next? tokens = some (sentence, after))
    (read : (Statement.read sentence after).result = .ok node) (fuel : Nat) :
    runStatements fuel tokens session =
      (evaluate fuel node >>= follow fuel (Statement.read sentence after).rest)
        (session.noteAll (Statement.read sentence after).events) := by
  have same : runStatements fuel tokens = note (Statement.read sentence after).events >>= fun _ =>
      evaluate fuel node >>= follow fuel (Statement.read sentence after).rest := by
    rw [runStatements]
    split
    · rename_i found
      cases next.symm.trans found
    · rename_i found
      cases next.symm.trans found
      dsimp only
      rw [read]
      dsimp only
      refine congrArg (note _ >>= ·) (funext fun _ => congrArg (evaluate fuel node >>= ·) (funext fun outcome => ?_))
      cases outcome with
      | error escape => rfl
      | ok value =>
        dsimp only [follow]
        split <;> rfl
  rw [same]
  exact bind_ok rfl _

theorem runStatements_stuck (roomy : session.Roomy) (next : Sentence.next? tokens = some (sentence, after))
    {error : GrammarError} (misread : (Statement.read sentence after).result = .error error) (fuel : Nat) :
    runStatements fuel tokens session = some (.ok (),
      (session.noteAll (Statement.read sentence after).events).complained (complaint (.ungrammatical error))) := by
  have same : runStatements fuel tokens = note (Statement.read sentence after).events >>= fun _ =>
      complain (complaint (.ungrammatical error)) := by
    rw [runStatements]
    split
    · rename_i found
      cases next.symm.trans found
    · rename_i found
      cases next.symm.trans found
      dsimp only
      rw [misread]
      rfl
  rw [same]
  exact (bind_ok rfl _).trans (complain_roomy (roomy.noted _) _)

theorem runStatements_endless (next : Sentence.next? tokens = some (sentence, after))
    (read : (Statement.read sentence after).result = .ok node)
    (endless : (session.noteAll (Statement.read sentence after).events).eval fuel node = none) :
    runStatements fuel tokens session = none := by
  rw [runStatements_read next read]
  exact bind_none (evaluate_none endless) _

theorem runStatements_failed (roomy : session.Roomy) (next : Sentence.next? tokens = some (sentence, after))
    (read : (Statement.read sentence after).result = .ok node) {escape : Escape}
    (ran : (session.noteAll (Statement.read sentence after).events).eval fuel node = some (.error escape, middle)) :
    runStatements fuel tokens session = some (.ok (), middle.complained (complaint (.ofEscape escape))) := by
  rw [runStatements_read next read, bind_ok (evaluate_some ran)]
  exact complain_roomy ((roomy.noted _).evaluated ⟨fuel, ran, rfl⟩) _

theorem runStatements_passed (roomy : session.Roomy) (next : Sentence.next? tokens = some (sentence, after))
    (read : (Statement.read sentence after).result = .ok node) {value : Value}
    (ran : (session.noteAll (Statement.read sentence after).events).eval fuel node = some (.ok value, middle)) :
    runStatements fuel tokens session =
      runStatements fuel (Statement.read sentence after).rest (middle.said (echo value)) := by
  have room := (roomy.noted _).evaluated ⟨fuel, ran, rfl⟩
  rw [runStatements_read next read, bind_ok (evaluate_some ran), follow, echo]
  split
  · rw [room.said_nothing]
    exact bind_ok rfl _
  · exact bind_ok (say_roomy room _) _

theorem shorter (next : Sentence.next? tokens = some (sentence, after)) :
    (Statement.read sentence after).rest.length < tokens.length := by
  have := Sentence.next?_shorter next
  have := (Statement.read sentence after).within.length_le
  omega

/-- Whatever number of steps suffices, the chunk is settled, and no stream has failed. -/
theorem settles_of_runStatements (roomy : session.Roomy) {reply : Except StreamError Unit}
    (ran : runStatements fuel tokens session = some (reply, final)) :
    reply = .ok () ∧ ∃ passed, Settles tokens session passed final := by
  induction size : tokens.length using Nat.strongRecOn generalizing tokens session with
  | _ length ih =>
    subst size
    cases next : Sentence.next? tokens with
    | none =>
      cases (runStatements_done next fuel).symm.trans ran
      exact ⟨rfl, [], .done _ next⟩
    | some found =>
      obtain ⟨sentence, after⟩ := found
      cases read : (Statement.read sentence after).result with
      | error error =>
        cases (runStatements_stuck roomy next read fuel).symm.trans ran
        exact ⟨rfl, [], .stuck session next read⟩
      | ok node =>
        cases evaluated : (session.noteAll (Statement.read sentence after).events).eval fuel node with
        | none => cases (runStatements_endless next read evaluated).symm.trans ran
        | some ended =>
          obtain ⟨_ | value, middle⟩ := ended
          · cases (runStatements_failed roomy next read evaluated).symm.trans ran
            exact ⟨rfl, _, .failed next read ⟨fuel, evaluated, rfl⟩⟩
          · rw [runStatements_passed roomy next read evaluated] at ran
            have room := ((roomy.noted _).evaluated ⟨fuel, evaluated, rfl⟩).said (echo value)
            obtain ⟨fine, later, settles⟩ := ih _ (shorter next) room ran rfl
            exact ⟨fine, _, .passed next read ⟨fuel, evaluated, rfl⟩ settles⟩

/-- A chunk that is settled is settled with so many steps, or any more. -/
theorem Settles.runStatements (settles : Settles tokens session passed final) (roomy : session.Roomy) :
    ∃ fuel, ∀ more, fuel ≤ more → runStatements more tokens session = some (.ok (), final) := by
  induction settles with
  | done session atEnd => exact ⟨0, fun more _ => runStatements_done atEnd more⟩
  | stuck session next misread => exact ⟨0, fun more _ => runStatements_stuck roomy next misread more⟩
  | failed next read evaluates =>
    obtain ⟨fuel, ran, _⟩ := evaluates
    exact ⟨fuel, fun more le => runStatements_failed roomy next read (Session.eval_more ran le)⟩
  | @passed tokens after sentence node session middle final value passed later next read evaluates rest ih =>
    obtain ⟨fuel, ran, _⟩ := evaluates
    obtain ⟨other, onward⟩ := ih (((roomy.noted _).evaluated ⟨fuel, ran, rfl⟩).said _)
    refine ⟨max fuel other, fun more le => ?_⟩
    rw [runStatements_passed roomy next read (Session.eval_more ran (Nat.le_trans (Nat.le_max_left ..) le))]
    exact onward more (Nat.le_trans (Nat.le_max_right ..) le)

theorem Settles.unique {last : Session} {others : List Config} (settles : Settles tokens session passed final)
    (again : Settles tokens session others last) (roomy : session.Roomy) : final = last :=
  reached_unique (settles.runStatements roomy) (again.runStatements roomy)

/-! ### Chunks -/

theorem runChunk_unreadable (roomy : session.Roomy) {name text : String} {error : TokenError}
    (unread : (Source.ofText name text).tokens.result = .error error) (fuel : Nat) :
    runChunk fuel name text session = some (.ok (),
      (session.noteAll (Source.ofText name text).tokens.events).complained (complaint (.unreadable error))) := by
  have same : runChunk fuel name text = note (Source.ofText name text).tokens.events >>= fun _ =>
      complain (complaint (.unreadable error)) := by
    unfold runChunk
    dsimp only
    rw [unread]
    rfl
  rw [same]
  exact (bind_ok rfl _).trans (complain_roomy (roomy.noted _) _)

theorem runChunk_lexed {name text : String} (lexed : (Source.ofText name text).tokens.result = .ok tokens) (fuel : Nat) :
    runChunk fuel name text session =
      runStatements fuel tokens (session.noteAll (Source.ofText name text).tokens.events) := by
  have same : runChunk fuel name text = note (Source.ofText name text).tokens.events >>= fun _ =>
      runStatements fuel tokens := by
    unfold runChunk
    dsimp only
    rw [lexed]
  rw [same]
  exact bind_ok rfl _

theorem settles_of_runChunk (roomy : session.Roomy) {name text : String} {reply : Except StreamError Unit}
    (lexed : (Source.ofText name text).tokens.result = .ok tokens)
    (ran : runChunk fuel name text session = some (reply, final)) :
    reply = .ok () ∧ ∃ passed, Settles tokens (session.noteAll (Source.ofText name text).tokens.events) passed final := by
  rw [runChunk_lexed lexed] at ran
  exact settles_of_runStatements (roomy.noted _) ran

/-- A chunk comes to an end just if its statements settle it. -/
theorem runChunk_isSome (roomy : session.Roomy) {name text : String}
    (lexed : (Source.ofText name text).tokens.result = .ok tokens) :
    (∃ fuel, (runChunk fuel name text session).isSome) ↔
      ∃ passed final, Settles tokens (session.noteAll (Source.ofText name text).tokens.events) passed final := by
  constructor
  · rintro ⟨fuel, ended⟩
    obtain ⟨⟨reply, final⟩, ran⟩ := Option.isSome_iff_exists.mp ended
    obtain ⟨_, passed, settles⟩ := settles_of_runChunk roomy lexed ran
    exact ⟨passed, final, settles⟩
  · rintro ⟨passed, final, settles⟩
    obtain ⟨fuel, ran⟩ := settles.runStatements (roomy.noted _)
    refine ⟨fuel, ?_⟩
    rw [runChunk_lexed lexed, ran fuel (Nat.le_refl fuel)]
    rfl

end Prompt
end Parlance
