import Parlance.Proofs.Prompt.Transcript
import Parlance.Proofs.WellFormedRuns

/-! The prompt evaluates a chunk statement by statement, as it reads them. That comes to the same as executing the chunk as a
source: it leaves the same scopes and the same input, and says the same but for the echoes. -/
namespace Parlance

open Arena

namespace Prompt

open Session

/-- The answers are those of the statements: each one is what the program comes to that ends with its statement, and what
that statement has written. Either all statements have answers, or the next one fails. -/
structure Replays (session : Session) (program : List Node) (answers : List (String × Value)) (escape : Option Escape) :
    Prop where
  each : ∀ earlier answer later, answers = earlier ++ answer :: later → ∃ fuel middle,
    session.run fuel (program.take (earlier.length + 1)) = some (.ok answer.2, middle) ∧
    middle.streams.output.written = session.streams.output.written ++ String.join (earlier.map Prod.fst) ++ answer.1
  all : escape = none → answers.length = program.length
  last : ∀ reason, escape = some reason → ∃ fuel middle,
    session.run fuel (program.take (answers.length + 1)) = some (.error reason, middle)

/-- What goes to the error stream after a program. -/
def verdict : Except ProgramError Value → String
  | .ok _ => ""
  | .error error => error.message ++ "\n"

variable {session start twin after final : Session} {tokens : List Token} {nodes : List Node} {stop : Option GrammarError}
  {outcome : Outcome}

/-- A session with the same scopes and streams does for the beginning of a program. -/
theorem run_of_ends (room : session.streams.output.room = none) (arena : start.arena = session.arena)
    (streams : start.streams = session.streams) {count : Nat}
    (ends : Config.Ends ⟨.block ((Node.numberAll session.sites nodes).1.take count) root, [], start⟩ outcome after) :
    ∃ fuel middle, session.run fuel (nodes.take count) = some (outcome, middle) ∧
      middle.streams.output.written = after.streams.output.written := by
  have even : Even start.streams.error start
      { session with sites := (Node.numberAll session.sites (nodes.take count)).2 } :=
    ⟨arena.symm, by rw [streams], ⟨rfl, by rw [streams]⟩, by rw [streams]; exact room, room⟩
  rw [← Node.numberAll_take] at ends
  obtain ⟨middle, text, ⟨fuel, ran⟩, _, here, there⟩ := even.ends ends
  refine ⟨fuel, middle, ran, ?_⟩
  rw [here, there, streams]

theorem replays_of_transcript (room : session.streams.output.room = none) (arena : start.arena = session.arena)
    (streams : start.streams = session.streams) {answers : List (String × Value)} {escape : Option Escape}
    (transcript : Transcript (Node.numberAll session.sites nodes).1 start answers escape after) :
    Replays session nodes answers escape := by
  refine ⟨?_, ?_, ?_⟩
  · rintro earlier answer later rfl
    obtain ⟨middle, ends, written⟩ := transcript.taken
    obtain ⟨fuel, last, ran, same⟩ := run_of_ends room arena streams ends
    exact ⟨fuel, last, ran, by rw [same, written, streams]⟩
  · rintro rfl
    have count := transcript.length_eq
    rwa [if_pos rfl, Node.length_numberAll] at count
  · rintro reason rfl
    obtain ⟨fuel, last, ran, _⟩ := run_of_ends room arena streams transcript.broken
    exact ⟨fuel, last, ran⟩

/-- A chunk is settled just if its statements, run as a block, come to an end, and then with the same effect. -/
theorem settles_iff_block (reads : Program.Reads tokens nodes stop) (roomy : session.Roomy) (start : Session)
    (arena : start.arena = session.arena) (streams : start.streams = session.streams) (events : List Event) :
    ((∃ outcome after, Config.Ends ⟨.block (Node.numberAll session.sites nodes).1 root, [], start⟩ outcome after) ↔
      ∃ passed final, Settles tokens (session.noteAll events) passed final) ∧
    ∀ outcome after passed final,
      Config.Ends ⟨.block (Node.numberAll session.sites nodes).1 root, [], start⟩ outcome after →
      Settles tokens (session.noteAll events) passed final →
        final.streams.error = ⟨session.streams.error.written ++ report outcome.escape? stop, none⟩ ∧
        ∃ answers, Replays session nodes answers outcome.escape? ∧
          Echoes session session answers outcome.escape? after final := by
  have even : Even session.streams.error start (session.noteAll events) :=
    ⟨arena.symm, by rw [streams]; rfl, ⟨by rw [streams], rfl⟩, by rw [streams]; exact roomy.output, roomy.output⟩
  refine ⟨⟨?_, ?_⟩, ?_⟩
  · rintro ⟨outcome, after, ends⟩
    obtain ⟨answers, transcript⟩ := transcript_of_block even.rooms.1 ends
    obtain ⟨passed, final, settles, _⟩ := settles_of_transcript reads even roomy.error transcript
    exact ⟨passed, final, settles⟩
  · rintro ⟨passed, final, settles⟩
    obtain ⟨answers, escape, after, transcript⟩ := transcript_of_settles reads even settles
    obtain ⟨outcome, _, ends⟩ := transcript.block
    exact ⟨outcome, after, ends⟩
  · intro outcome after passed final ends settles
    obtain ⟨answers, transcript⟩ := transcript_of_block even.rooms.1 ends
    obtain ⟨_, last, settled, echoes, errors⟩ := settles_of_transcript reads even roomy.error transcript
    obtain rfl := settles.unique settled roomy
    refine ⟨errors, answers, replays_of_transcript roomy.output arena streams transcript, echoes.arena, echoes.input, ?_⟩
    have output := echoes.output
    rw [streams] at output
    exact output

theorem launch_session (session : Session) (source : Source) (program : List Node) :
    (session.launch source program).session.arena = session.arena ∧
      (session.launch source program).session.streams = session.streams :=
  ⟨rfl, rfl⟩

/-- The prompt evaluates the statements of a chunk as it reads them, and that agrees with executing the chunk as a source.
A chunk that makes no tokens is complained of, and no more. If it makes a program, the prompt comes to its end just if the
execution does. Then the scopes and the input are the same, the complaint is what the execution failed with, and the output
differs in the echoes only: one after each statement that has a value other than nothing. If there is an error at one of
the statements, those before it are evaluated in the same way, and unless one of them fails the error is the complaint. -/
theorem runChunk_agrees {session : Session} (output : session.streams.output.room = none)
    (error : session.streams.error.room = none) (name text : String) :
    (∀ problem, (Source.ofText name text).tokens.result = .error problem → ∀ fuel, ∃ final,
      runChunk fuel name text session = some (.ok (), final) ∧ final.arena = session.arena ∧
      final.streams = { session.streams with
        error := ⟨session.streams.error.written ++ verdict (.error (.unreadable problem)), none⟩ }) ∧
    (∀ program, (Source.ofText name text).program.result = .ok program →
      ((∃ fuel, (session.execute fuel (.ofText name text)).isSome) ↔
        ∃ fuel, (runChunk fuel name text session).isSome) ∧
      ∀ fuel result after steps reply final, session.execute fuel (.ofText name text) = some (result, after) →
        runChunk steps name text session = some (reply, final) →
          reply = .ok () ∧ final.streams.error = ⟨session.streams.error.written ++ verdict result, none⟩ ∧
          ∃ outcome : Outcome, result = outcome.mapError .ofEscape ∧
            ∃ answers, Replays session program answers outcome.escape? ∧
              Echoes session session answers outcome.escape? after final) ∧
    ∀ problem, (Source.ofText name text).program.result = .error (.ungrammatical problem) →
      ∃ tokens program, (Source.ofText name text).tokens.result = .ok tokens ∧
        Program.Reads tokens program (some problem) ∧
        ((∃ fuel, (session.run fuel program).isSome) ↔ ∃ fuel, (runChunk fuel name text session).isSome) ∧
        ∀ fuel outcome after steps reply final, session.run fuel program = some (outcome, after) →
          runChunk steps name text session = some (reply, final) →
            reply = .ok () ∧
            final.streams.error = ⟨session.streams.error.written ++ report outcome.escape? (some problem), none⟩ ∧
            ∃ answers, Replays session program answers outcome.escape? ∧
              Echoes session session answers outcome.escape? after final := by
  have roomy : session.Roomy := ⟨output, error⟩
  refine ⟨?_, ?_, ?_⟩
  · intro problem unread fuel
    exact ⟨_, runChunk_unreadable roomy unread fuel, rfl, rfl⟩
  · intro program read
    obtain ⟨tokens, lexed, parsed⟩ := Source.program_parsed read
    have reads := Program.reads_of_ok ((Program.read_result tokens).symm.trans parsed)
    obtain ⟨arena, streams⟩ := launch_session session (.ofText name text) program
    obtain ⟨both, agree⟩ := settles_iff_block reads roomy _ arena streams (Source.ofText name text).tokens.events
    refine ⟨?_, ?_⟩
    · rw [runChunk_isSome roomy lexed, ← both]
      simp only [execute_launch session _ read, Option.isSome_map]
      exact Config.exists_ends.symm
    · intro fuel result after steps reply final executed ran
      obtain ⟨rfl, passed, settles⟩ := settles_of_runChunk roomy lexed ran
      rw [execute_launch session fuel read] at executed
      obtain ⟨⟨outcome, last⟩, ended, same⟩ := Option.map_eq_some_iff.mp executed
      cases same
      obtain ⟨errors, replays⟩ := agree outcome last passed final ⟨fuel, ended⟩ settles
      refine ⟨rfl, ?_, outcome, rfl, replays⟩
      rw [errors]
      cases outcome <;> rfl
  · intro problem misread
    obtain ⟨tokens, lexed, unparsed⟩ := Source.program_misread misread
    obtain ⟨program, reads⟩ := Program.reads_of_error unparsed
    obtain ⟨both, agree⟩ := settles_iff_block reads roomy (session.load program).2 rfl rfl
      (Source.ofText name text).tokens.events
    refine ⟨tokens, program, lexed, reads, ?_, ?_⟩
    · rw [runChunk_isSome roomy lexed, ← both]
      exact Config.exists_ends.symm
    · intro fuel outcome after steps reply final ended ran
      obtain ⟨rfl, passed, settles⟩ := settles_of_runChunk roomy lexed ran
      exact ⟨rfl, agree outcome after passed final ⟨fuel, ended⟩ settles⟩

/-- Of four statements the third one fails: the execution has shown a number, and the prompt has also echoed a value. -/
theorem runChunk_agrees_failing :
    ∃ session name text error after final, session = Session.start (.ofInput []) .silent ∧ name = "<repl:1>" ∧
      text = "show of 7\n2 plus 3\nshow of the moon\n4" ∧
      session.execute 60 (.ofText name text) = some (.error error, after) ∧
      runChunk 60 name text session = some (.ok (), final) ∧ final.arena = after.arena ∧
      after.streams.output.written = "7\n" ∧ final.streams.output.written = "7\n=> 5\n" ∧
      final.streams.error.written = error.message ++ "\n" := by
  have ran : ∃ session name text, session = Session.start (.ofInput []) .silent ∧ name = "<repl:1>" ∧
      text = "show of 7\n2 plus 3\nshow of the moon\n4" ∧ session.streams = .ofInput [] ∧
      (Source.ofText name text).program.result.toBool = true ∧
      (session.execute 60 (.ofText name text)).map (fun ended => (ended.1.toBool, ended.2.streams.output.written)) =
        some (false, "7\n") ∧
      (runChunk 60 name text session).map (fun ended => ended.2.streams.output.written) = some "7\n=> 5\n" :=
    ⟨_, _, _, rfl, rfl, rfl, rfl, by decide +kernel, by decide +kernel, by decide +kernel⟩
  obtain ⟨session, name, text, new, named, given, streams, fine, failed, settled⟩ := ran
  obtain ⟨_, agree, _⟩ := @runChunk_agrees session (by rw [streams]; rfl) (by rw [streams]; rfl) name text
  cases read : (Source.ofText name text).program.result with
  | error error =>
    rw [read] at fine
    cases fine
  | ok program =>
    obtain ⟨⟨result, after⟩, executed, same⟩ := Option.map_eq_some_iff.mp failed
    obtain ⟨⟨reply, final⟩, chunk, echoed⟩ := Option.map_eq_some_iff.mp settled
    obtain ⟨rfl, errors, outcome, _, answers, _, echoes⟩ := (agree program read).2 _ _ _ _ _ _ executed chunk
    obtain ⟨wrong, shown⟩ := Prod.mk.inj same
    cases result with
    | ok value => cases wrong
    | error error =>
      refine ⟨session, name, text, error, after, final, new, named, given, executed, chunk, echoes.arena, shown, echoed, ?_⟩
      rw [errors, streams]
      exact String.empty_append

end Prompt
end Parlance
