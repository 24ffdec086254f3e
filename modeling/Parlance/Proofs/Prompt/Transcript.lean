import Parlance.Proofs.Node.Yields
import Parlance.Proofs.Prompt.Settles
import Parlance.Proofs.Repetition

/-! The transcript of a program: what each statement writes, its value, and how the last one ends. A block of statements has
one if it comes to an end, and a chunk is settled just if its statements have one: then the chunk writes what they write and
an echo of every value. -/
namespace Parlance

open Arena

/-! ### Statements as they are read -/

/-- The statements that tokens make, one after the other, and the error at which reading stops, if it does. -/
inductive Program.Reads : List Token → List Node → Option GrammarError → Prop
  | done {tokens : List Token} (atEnd : Sentence.next? tokens = none) : Reads tokens [] none
  | stuck {tokens after : List Token} {sentence : Sentence} {error : GrammarError}
      (next : Sentence.next? tokens = some (sentence, after))
      (misread : (Statement.read sentence after).result = .error error) : Reads tokens [] (some error)
  | more {tokens after : List Token} {sentence : Sentence} {node : Node} {nodes : List Node} {stop : Option GrammarError}
      (next : Sentence.next? tokens = some (sentence, after))
      (read : (Statement.read sentence after).result = .ok node)
      (rest : Reads (Statement.read sentence after).rest nodes stop) : Reads tokens (node :: nodes) stop

namespace Program

theorem readStatements_next {tokens after : List Token} {sentence : Sentence}
    (next : Sentence.next? tokens = some (sentence, after)) :
    (readStatements tokens).result = (Statement.read sentence after).result.bind fun node =>
      (readStatements (Statement.read sentence after).rest).result.map (node :: ·) := by
  rw [readStatements]
  split
  · rename_i atEnd
    cases next.symm.trans atEnd
  · rename_i found
    cases next.symm.trans found
    simp only [Parsed.widen, Parsed.andThen]
    cases (Statement.read sentence after).result <;> rfl

theorem readStatements_atEnd {tokens : List Token} (atEnd : Sentence.next? tokens = none) :
    (readStatements tokens).result = .ok [] := by
  rw [readStatements]
  split
  · rfl
  · rename_i found
    cases atEnd.symm.trans found

/-- There are statements and then an end or an error, and reading them all gives the statements or the error. -/
theorem exists_reads (tokens : List Token) :
    ∃ nodes stop, Reads tokens nodes stop ∧ (readStatements tokens).result = stop.elim (.ok nodes) .error := by
  induction size : tokens.length using Nat.strongRecOn generalizing tokens with
  | _ length ih =>
    subst size
    cases next : Sentence.next? tokens with
    | none => exact ⟨[], none, .done next, readStatements_atEnd next⟩
    | some found =>
      obtain ⟨sentence, after⟩ := found
      have whole := readStatements_next next
      cases read : (Statement.read sentence after).result with
      | error error => exact ⟨[], some error, .stuck next read, by rw [whole, read]; rfl⟩
      | ok node =>
        obtain ⟨nodes, stop, reads, result⟩ := ih _ (Prompt.shorter next) _ rfl
        refine ⟨node :: nodes, stop, .more next read reads, ?_⟩
        rw [whole, read, result]
        cases stop <;> rfl

theorem reads_of_ok {tokens : List Token} {program : List Node} (read : (readStatements tokens).result = .ok program) :
    Reads tokens program none := by
  obtain ⟨nodes, stop, reads, result⟩ := exists_reads tokens
  cases stop with
  | none =>
    cases read.symm.trans result
    exact reads
  | some error => cases read.symm.trans result

theorem reads_of_error {tokens : List Token} {error : GrammarError}
    (misread : (readStatements tokens).result = .error error) : ∃ nodes, Reads tokens nodes (some error) := by
  obtain ⟨nodes, stop, reads, result⟩ := exists_reads tokens
  cases stop with
  | none => cases misread.symm.trans result
  | some other =>
    cases misread.symm.trans result
    exact ⟨nodes, reads⟩

end Program

theorem Source.program_misread {source : Source} {error : GrammarError}
    (misread : source.program.result = .error (.ungrammatical error)) :
    ∃ tokens, source.tokens.result = .ok tokens ∧ (Program.readStatements tokens).result = .error error := by
  cases lexed : source.tokens.result with
  | error problem =>
    rw [program, lexed] at misread
    cases misread
  | ok tokens =>
    refine ⟨tokens, rfl, ?_⟩
    rw [program_result lexed] at misread
    cases read : (Program.readStatements tokens).result with
    | ok nodes =>
      rw [read] at misread
      cases misread
    | error other =>
      rw [read] at misread
      cases misread
      rfl

theorem Node.numberAll_take (site count : Nat) (nodes : List Node) :
    (numberAll site (nodes.take count)).1 = (numberAll site nodes).1.take count := by
  induction nodes generalizing site count with
  | nil => simp [numberAll]
  | cons node rest ih =>
    cases count with
    | zero => rfl
    | succ count =>
      simp only [List.take_succ_cons, numberAll]
      rw [ih]

theorem Node.length_numberAll (site : Nat) (nodes : List Node) : (numberAll site nodes).1.length = nodes.length := by
  induction nodes generalizing site with
  | nil => rfl
  | cons node rest ih => simp [numberAll, ih]

/-! ### Transcripts -/

namespace Session

/-- Each statement's text and value, one after the other, and the escape of the last one, if it has no value. -/
inductive Transcript : List Node → Session → List (String × Value) → Option Escape → Session → Prop
  | done (session : Session) : Transcript [] session [] none session
  | failed {node : Node} {session after : Session} {escape : Escape} (rest : List Node)
      (ends : Config.Ends ⟨.eval node root, [], session⟩ (.error escape) after) :
      Transcript (node :: rest) session [] (some escape) after
  | passed {node : Node} {rest : List Node} {session middle after : Session} {text : String} {value : Value}
      {answers : List (String × Value)} {escape : Option Escape}
      (ends : Config.Ends ⟨.eval node root, [], session⟩ (.ok value) middle)
      (wrote : middle.streams.output = ⟨session.streams.output.written ++ text, none⟩)
      (later : Transcript rest middle answers escape after) :
      Transcript (node :: rest) session ((text, value) :: answers) escape after

end Session

def Outcome.escape? : Outcome → Option Escape
  | .ok _ => none
  | .error escape => some escape

/-! ### Two outputs -/

/-- The same streams, but for what stood in the outputs before. The error streams are as they were. -/
structure Streams.Beside (error : Sink) (one other : String) (first second : Streams) : Prop where
  errors : first.error = error ∧ second.error = error
  input : second.input = first.input
  output : ∃ text, first.output = ⟨one ++ text, none⟩ ∧ second.output = ⟨other ++ text, none⟩

theorem Streams.congruent_beside (error : Sink) (one other : String) : Streams.Congruent (Streams.Beside error one other) := by
  refine ⟨?_, ?_⟩
  · rintro ⟨_, _, _⟩ ⟨_, _, _⟩ more ⟨⟨rfl, rfl⟩, rfl, text, rfl, rfl⟩
    refine ⟨rfl, ⟨rfl, rfl⟩, rfl, text ++ more, ?_, ?_⟩ <;> simp [Streams.write, Sink.write, String.append_assoc]
  · rintro ⟨_, _, _⟩ ⟨_, _, lines⟩ ⟨⟨rfl, rfl⟩, rfl, text, rfl, rfl⟩
    rcases lines with _ | ⟨_ | line, rest⟩ <;> exact ⟨rfl, ⟨rfl, rfl⟩, rfl, text, rfl, rfl⟩

namespace Session

variable {error : Sink} {session twin after last : Session} {outcome : Outcome} {node : Node} {nodes : List Node}

/-- Both sessions are in the same state, but for their outputs, logs and sites. -/
structure Even (error : Sink) (first second : Session) : Prop where
  arena : second.arena = first.arena
  input : second.streams.input = first.streams.input
  errors : first.streams.error = error ∧ second.streams.error = error
  rooms : first.streams.output.room = none ∧ second.streams.output.room = none

theorem Even.abreast (even : Even error session twin) :
    session.Abreast (Streams.Beside error session.streams.output.written twin.streams.output.written) twin := by
  obtain ⟨_, ⟨⟨_, _⟩, _, _⟩, _, _⟩ := session
  obtain ⟨_, ⟨⟨_, _⟩, _, _⟩, _, _⟩ := twin
  obtain ⟨same, input, errors, ⟨rfl, rfl⟩⟩ := even
  refine ⟨same, errors, input, "", ?_, ?_⟩ <;> simp

theorem Even.of_abreast {one other : String} (abreast : session.Abreast (Streams.Beside error one other) twin) :
    Even error session twin ∧ ∃ text, session.streams.output = ⟨one ++ text, none⟩ ∧
      twin.streams.output = ⟨other ++ text, none⟩ := by
  obtain ⟨text, here, there⟩ := abreast.streams.output
  refine ⟨⟨abreast.arena, abreast.streams.input, abreast.streams.errors, ?_⟩, text, here, there⟩
  rw [here, there]
  exact ⟨rfl, rfl⟩

theorem Even.refl (room : session.streams.output.room = none) : Even session.streams.error session session :=
  ⟨rfl, rfl, ⟨rfl, rfl⟩, room, room⟩

/-- Of two evaluations of the same, in sessions that are even, both end if one does. They write the same. -/
theorem Even.ends (even : Even error session twin) {control : Control}
    (ends : Config.Ends ⟨control, [], session⟩ outcome after) :
    ∃ last text, Config.Ends ⟨control, [], twin⟩ outcome last ∧ Even error after last ∧
      after.streams.output = ⟨session.streams.output.written ++ text, none⟩ ∧
      last.streams.output = ⟨twin.streams.output.written ++ text, none⟩ := by
  have side : Config.Abreast _ ⟨control, [], session⟩ ⟨control, [], twin⟩ := ⟨rfl, rfl, even.abreast⟩
  obtain ⟨last, alike, abreast⟩ := side.ends (Streams.congruent_beside ..) ends
  obtain ⟨still, text, here, there⟩ := Even.of_abreast abreast
  exact ⟨last, text, alike, still, here, there⟩

theorem Even.symm (even : Even error session twin) : Even error twin session :=
  ⟨even.arena.symm, even.input.symm, even.errors.symm, even.rooms.symm⟩

theorem Even.noted (even : Even error session twin) (events : List Event) (sites : Nat) :
    Even error session { twin.noteAll events with sites := sites } :=
  ⟨even.arena, even.input, even.errors, even.rooms⟩

/-- An evaluation adds to the output, and to nothing else that is written. -/
theorem ends_wrote (room : session.streams.output.room = none) {control : Control}
    (ends : Config.Ends ⟨control, [], session⟩ outcome after) :
    ∃ text, after.streams.output = ⟨session.streams.output.written ++ text, none⟩ := by
  obtain ⟨_, text, _, _, wrote, _⟩ := (Even.refl room).ends ends
  exact ⟨text, wrote⟩

theorem ends_sites {control : Control} (ends : Config.Ends ⟨control, [], session⟩ outcome after) :
    after.sites = session.sites := by
  obtain ⟨fuel, ran⟩ := ends
  have kept : ∀ config next : Config, config.session.sites = session.sites →
      config.stepUnder .usual = .running next → next.session.sites = session.sites :=
    fun _ _ same stepped => (Config.sites_step Regime.usual_tame stepped).trans same
  obtain ⟨last, same, finished⟩ := Config.run_invariant kept rfl ran
  have ended : last.session = after := congrArg Config.session (Config.finished_atop [] finished)
  exact ended ▸ same

/-! ### Blocks -/

theorem transcript_of_block (room : session.streams.output.room = none)
    (ends : Config.Ends ⟨.block nodes root, [], session⟩ outcome after) :
    ∃ answers, Transcript nodes session answers outcome.escape? after := by
  induction nodes generalizing session with
  | nil =>
    obtain ⟨rfl, rfl⟩ := Config.ends_block_nil.mp ends
    exact ⟨[], .done _⟩
  | cons node rest ih =>
    obtain ⟨result, middle, evaluated, following⟩ := Config.ends_block_cons.mp ends
    obtain ⟨text, wrote⟩ := ends_wrote room evaluated
    cases result with
    | error escape =>
      obtain ⟨rfl, rfl⟩ := following
      exact ⟨[], .failed rest evaluated⟩
    | ok value =>
      dsimp only at following
      split at following
      · rename_i alone
        obtain ⟨rfl, rfl⟩ := following
        exact ⟨[(text, value)], alone ▸ .passed evaluated wrote (.done _)⟩
      · obtain ⟨answers, later⟩ := ih (by rw [wrote]) following
        exact ⟨(text, value) :: answers, .passed evaluated wrote later⟩

theorem Transcript.block {answers : List (String × Value)} {escape : Option Escape}
    (transcript : Transcript nodes session answers escape after) :
    ∃ outcome : Outcome, outcome.escape? = escape ∧ Config.Ends ⟨.block nodes root, [], session⟩ outcome after := by
  induction transcript with
  | done session => exact ⟨.ok .nothing, rfl, Config.ends_block_nil.mpr ⟨rfl, rfl⟩⟩
  | failed rest ends => exact ⟨_, rfl, Config.ends_block_cons.mpr ⟨_, _, ends, rfl, rfl⟩⟩
  | @passed node rest _ middle _ _ value _ _ ends _ later ih =>
    obtain ⟨outcome, same, following⟩ := ih
    by_cases alone : rest = []
    · subst alone
      obtain ⟨rfl, rfl⟩ := Config.ends_block_nil.mp following
      exact ⟨.ok value, same, Config.ends_block_cons.mpr ⟨_, _, ends, by simp⟩⟩
    · exact ⟨outcome, same, Config.ends_block_cons.mpr ⟨_, _, ends, by simpa [alone] using following⟩⟩

/-- All statements have values, or one fails and is the last to be evaluated. -/
theorem Transcript.length_eq {answers : List (String × Value)} {escape : Option Escape}
    (transcript : Transcript nodes session answers escape after) :
    if escape = none then answers.length = nodes.length else answers.length < nodes.length := by
  induction transcript with
  | done session => rfl
  | failed rest ends => simp
  | @passed _ _ _ _ _ _ _ _ escape _ _ _ ih => cases escape <;> simpa using ih

theorem Transcript.length_le {answers : List (String × Value)} {escape : Option Escape}
    (transcript : Transcript nodes session answers escape after) : answers.length ≤ nodes.length := by
  have count := transcript.length_eq
  split at count <;> omega

/-- The statements up to one that has a value come to that value. -/
theorem Transcript.taken {earlier later : List (String × Value)} {answer : String × Value} {escape : Option Escape}
    (transcript : Transcript nodes session (earlier ++ answer :: later) escape after) :
    ∃ middle, Config.Ends ⟨.block (nodes.take (earlier.length + 1)) root, [], session⟩ (.ok answer.2) middle ∧
      middle.streams.output.written =
        session.streams.output.written ++ String.join (earlier.map Prod.fst) ++ answer.1 := by
  induction earlier generalizing nodes session with
  | nil =>
    cases transcript with
    | @passed _ _ _ middle _ _ _ _ _ ends wrote later =>
      refine ⟨middle, ?_, by simp [wrote]⟩
      exact Config.ends_block_cons.mpr ⟨_, _, ends, by simp⟩
  | cons first earlier ih =>
    cases transcript with
    | @passed _ rest _ middle _ text value _ _ ends wrote following =>
      obtain ⟨last, taken, written⟩ := ih following
      have filled : rest.take (earlier.length + 1) ≠ [] := by
        have count : (earlier ++ answer :: later).length ≤ rest.length := following.length_le
        rw [List.length_append, List.length_cons] at count
        exact List.ne_nil_of_length_pos (by rw [List.length_take]; omega)
      refine ⟨last, Config.ends_block_cons.mpr ⟨_, _, ends, by simpa [filled] using taken⟩, ?_⟩
      rw [written, wrote]
      simp [String.append_assoc]

/-- The statements up to the one that fails fail. -/
theorem Transcript.broken {answers : List (String × Value)} {escape : Escape}
    (transcript : Transcript nodes session answers (some escape) after) :
    Config.Ends ⟨.block (nodes.take (answers.length + 1)) root, [], session⟩ (.error escape) after := by
  generalize same : some escape = ended at transcript
  induction transcript with
  | done session => cases same
  | failed rest ends =>
    cases same
    exact Config.ends_block_cons.mpr ⟨_, _, ends, rfl, rfl⟩
  | @passed _ rest _ _ _ _ _ answers _ ends _ later ih =>
    have count := later.length_eq
    rw [if_neg (by simp [← same])] at count
    have filled : rest.take (answers.length + 1) ≠ [] :=
      List.ne_nil_of_length_pos (by rw [List.length_take]; omega)
    exact Config.ends_block_cons.mpr ⟨_, _, ends, by simpa [filled] using ih same⟩

end Session

/-! ### Chunks -/

namespace Prompt

open Session

/-- What goes to the error stream: the problem of the statement that fails, else the error at which reading stops. -/
def report : Option Escape → Option GrammarError → String
  | some escape, _ => complaint (.ofEscape escape)
  | none, some error => complaint (.ungrammatical error)
  | none, none => ""

/-- What a chunk leaves of a session, where evaluating the same statements has left another session. -/
structure Echoes (session twin : Session) (answers : List (String × Value)) (escape : Option Escape) (after final : Session) :
    Prop where
  arena : final.arena = after.arena
  input : final.streams.input = after.streams.input
  output : ∃ tail, after.streams.output.written =
      session.streams.output.written ++ String.join (answers.map Prod.fst) ++ tail ∧
    final.streams.output.written =
      twin.streams.output.written ++ String.join (answers.map fun answer => answer.1 ++ echo answer.2) ++ tail ∧
    (escape = none → tail = "")

variable {error : Sink} {session twin after final : Session} {tokens : List Token} {nodes : List Node}
  {stop : Option GrammarError} {answers : List (String × Value)} {escape : Option Escape}

theorem echoes_of_even (even : Even error session twin) : Echoes session twin [] none session twin :=
  ⟨even.arena, even.input, "", by simp, by simp, fun _ => rfl⟩

/-- The statement that fails has written the rest of the output. -/
theorem echoes_of_failed {escape : Escape} {text : String} (even : Even error after final)
    (here : after.streams.output = ⟨session.streams.output.written ++ text, none⟩)
    (there : final.streams.output = ⟨twin.streams.output.written ++ text, none⟩) :
    Echoes session twin [] (some escape) after final := by
  refine ⟨even.arena, even.input, text, ?_, ?_, fun none => by cases none⟩
  · rw [here]
    simp
  · rw [there]
    simp

theorem Echoes.complained (echoes : Echoes session twin answers escape after final) (events : List Event) (text : String) :
    Echoes session twin answers escape after ((final.noteAll events).complained text) :=
  ⟨echoes.arena, echoes.input, echoes.output⟩

theorem Echoes.cons {middle last : Session} {text : String} {value : Value}
    (echoes : Echoes middle (last.said (echo value)) answers escape after final)
    (here : middle.streams.output = ⟨session.streams.output.written ++ text, none⟩)
    (there : last.streams.output = ⟨twin.streams.output.written ++ text, none⟩) :
    Echoes session twin ((text, value) :: answers) escape after final := by
  obtain ⟨tail, one, other, complete⟩ := echoes.output
  refine ⟨echoes.arena, echoes.input, tail, ?_, ?_, complete⟩
  · rw [one, here]
    simp [String.append_assoc]
  · rw [other]
    simp [said, there, String.append_assoc]

/-- Statements that have a transcript settle their chunk, and leave what their evaluation leaves, with echoes. -/
theorem settles_of_transcript (reads : Program.Reads tokens nodes stop) (even : Even error session twin)
    (room : error.room = none)
    (transcript : Transcript (Node.numberAll twin.sites nodes).1 session answers escape after) :
    ∃ passed final, Settles tokens twin passed final ∧ Echoes session twin answers escape after final ∧
      final.streams.error = ⟨error.written ++ report escape stop, none⟩ := by
  induction reads generalizing session twin answers with
  | done atEnd =>
    cases transcript
    refine ⟨[], twin, .done twin atEnd, echoes_of_even even, ?_⟩
    rw [even.errors.2, report, String.append_empty, ← room]
  | stuck next misread =>
    cases transcript
    refine ⟨[], _, .stuck twin next misread, (echoes_of_even even).complained .., ?_⟩
    simp only [Session.complained, noteAll, even.errors.2, report]
  | @more tokens remaining sentence node nodes stop next read rest ih =>
    have ready := even.noted (Statement.read sentence remaining).events (node.number twin.sites).2
    cases transcript with
    | @failed _ _ _ escape others ends =>
      obtain ⟨last, text, ⟨fuel, evaluated⟩, still, here, there⟩ := ready.ends ends
      have echoes : Echoes session twin [] (some escape) after last := echoes_of_failed still here there
      refine ⟨_, _, .failed next read ⟨fuel, evaluated, rfl⟩, echoes.complained [] _, ?_⟩
      simp only [Session.complained, still.errors.2, report]
    | @passed _ _ _ middle _ text value answers _ ends wrote later =>
      obtain ⟨last, more, ⟨fuel, evaluated⟩, still, here, there⟩ := ready.ends ends
      have same : text = more := by
        have written := congrArg Sink.written (wrote.symm.trans here)
        exact (String.append_right_inj _).mp written
      subst same
      have sites : (node.number twin.sites).2 = (last.said (echo value)).sites := (ends_sites ⟨fuel, evaluated⟩).symm
      rw [sites] at later
      have onward : Even error middle (last.said (echo value)) :=
        ⟨still.arena, still.input, still.errors, still.rooms.1, rfl⟩
      obtain ⟨_, final, settles, echoes, errors⟩ := ih onward later
      exact ⟨_, final, .passed next read ⟨fuel, evaluated, rfl⟩ settles, echoes.cons here there, errors⟩

/-- A chunk that is settled has statements with a transcript. -/
theorem transcript_of_settles (reads : Program.Reads tokens nodes stop) (even : Even error session twin)
    {passed : List Config} (settles : Settles tokens twin passed final) :
    ∃ answers escape after, Transcript (Node.numberAll twin.sites nodes).1 session answers escape after := by
  induction reads generalizing session twin passed with
  | done atEnd => exact ⟨[], none, session, .done session⟩
  | stuck next misread => exact ⟨[], none, session, .done session⟩
  | @more tokens remaining sentence node nodes stop next read rest ih =>
    cases settles with
    | done _ atEnd => cases next.symm.trans atEnd
    | stuck _ found misread =>
      cases next.symm.trans found
      cases read.symm.trans misread
    | @failed _ _ _ _ _ middle escape _ found reread evaluates =>
      cases next.symm.trans found
      cases read.symm.trans reread
      have ready := (even.noted (Statement.read sentence remaining).events (node.number twin.sites).2).symm
      obtain ⟨after, text, evaluated, _⟩ := ready.ends evaluates.ends
      exact ⟨[], some escape, after, .failed _ evaluated⟩
    | @passed _ _ _ _ _ middle _ value _ _ found reread evaluates settles =>
      cases next.symm.trans found
      cases read.symm.trans reread
      have ready := (even.noted (Statement.read sentence remaining).events (node.number twin.sites).2).symm
      obtain ⟨last, text, evaluated, still, _, there⟩ := ready.ends evaluates.ends
      have sites : (node.number twin.sites).2 = (middle.said (echo value)).sites := (ends_sites evaluates.ends).symm
      have onward : Even error last (middle.said (echo value)) :=
        ⟨still.arena.symm, still.input.symm, still.errors.symm, still.rooms.2, rfl⟩
      obtain ⟨answers, escape, after, later⟩ := ih onward settles
      rw [← sites] at later
      exact ⟨(text, value) :: answers, escape, after, .passed evaluated there later⟩

end Prompt
end Parlance
