import Parlance.Proofs.Machine.Answers
import Parlance.Proofs.Prompt.Settles

/-! The exchanges of a session at the prompt. In each a chunk is taken from the lines at hand and run, and its questions
take the lines that follow. -/
namespace Parlance

/-- The session with these lines left of the input. -/
def Session.offering (session : Session) (lines : List String) : Session :=
  { session with streams := { session.streams with input := lines.map some } }

theorem Session.Roomy.offering {session : Session} (roomy : session.Roomy) (lines : List String) :
    (session.offering lines).Roomy :=
  ⟨roomy.output, roomy.error⟩

theorem Session.said_said (session : Session) (first second : String) :
    (session.said first).said second = session.said (first ++ second) := by
  simp only [said, String.append_assoc]

theorem Session.offering_self {session : Session} {lines : List String} (offers : session.streams.Offers lines) :
    session.offering lines = session := by
  obtain ⟨arena, ⟨output, error, input⟩, log, sites⟩ := session
  have given : input = lines.map some := offers
  subst given
  rfl

theorem Session.Evaluates.offers {session after : Session} {node : Node} {passed : List Config} {outcome : Outcome}
    {lines : List String} (evaluates : session.Evaluates node passed outcome after)
    (offers : session.streams.Offers lines) :
    ∃ rest, after.streams.Offers rest ∧ lines = passed.filterMap Config.answer? ++ rest := by
  obtain ⟨fuel, evaluated, rfl⟩ := evaluates
  have ran : (session.evaluating node).run fuel = some (outcome, after) := evaluated
  exact Config.offers_run ran offers

theorem Dialogue.hear_offers {session : Session} {lines : List String} (offers : session.streams.Offers lines) :
    hear session = some (.ok lines.head?, session.offering lines.tail) := by
  obtain ⟨arena, ⟨output, error, input⟩, log, sites⟩ := session
  have given : input = lines.map some := offers
  subst given
  cases lines <;> rfl

theorem Streams.Offers.unique {streams : Streams} {lines others : List String} (offers : streams.Offers lines)
    (again : streams.Offers others) : lines = others :=
  (List.map_inj_right fun _ _ => Option.some.inj).mp (offers.symm.trans again)

namespace Prompt

open Dialogue

/-! ### Chunks -/

/-- The lines of a chunk: the one at the first prompt, those that were added to it, and the blank one that ended it. -/
structure Chunk where
  opening : String
  further : List String
  closing : Option String

namespace Chunk

def lines (chunk : Chunk) : List String :=
  chunk.opening :: chunk.further ++ chunk.closing.toList

def text (chunk : Chunk) : String :=
  "\n".intercalate (chunk.opening :: chunk.further)

/-- What is said while the lines of a block are added, the last time in vain. -/
def urging : List String → String
  | [] => ". "
  | _ :: later => ". " ++ urging later

/-- What is said while the lines of the chunk are taken. -/
def prompts (chunk : Chunk) : String :=
  if opensBlock chunk.opening then "> " ++ urging chunk.further else "> "

end Chunk

/-- A chunk, and the lines that its questions were answered with. -/
structure Exchange where
  chunk : Chunk
  answers : List String

def Exchange.lines (exchange : Exchange) : List String :=
  exchange.chunk.lines ++ exchange.answers

/-- Whether a line goes into the block that it follows. -/
def continues (line : String) : Bool :=
  !Text.allBlank line.toList

/-- The first chunk, and the lines after it. A line that opens a block takes the lines up to a blank one with it. -/
def nextChunk? : List String → Option (Chunk × List String)
  | [] => none
  | line :: rest =>
    if opensBlock line then
      some (⟨line, rest.takeWhile continues, (rest.dropWhile continues).head?⟩, (rest.dropWhile continues).tail)
    else some (⟨line, [], none⟩, rest)

variable {lines rest : List String} {chunk : Chunk}

theorem nextChunk?_lines (next : nextChunk? lines = some (chunk, rest)) : lines = chunk.lines ++ rest := by
  cases lines with
  | nil => cases next
  | cons line later =>
    simp only [nextChunk?] at next
    split at next
    · cases next
      have ending : (later.dropWhile continues).head?.toList ++ (later.dropWhile continues).tail =
          later.dropWhile continues := by
        cases later.dropWhile continues <;> rfl
      simp only [Chunk.lines, List.cons_append, List.append_assoc, ending, List.takeWhile_append_dropWhile]
    · cases next
      rfl

theorem nextChunk?_shorter (next : nextChunk? lines = some (chunk, rest)) : rest.length < lines.length := by
  rw [nextChunk?_lines next, Chunk.lines]
  simp
  omega

-- The name of what is taken serves the termination argument.
set_option linter.unusedVariables false in
/-- The chunks that lines make when no question takes one of them. -/
def chunks (lines : List String) : List Chunk :=
  match next : nextChunk? lines with
  | none => []
  | some (chunk, rest) => chunk :: chunks rest
termination_by lines.length
decreasing_by exact nextChunk?_shorter next

theorem chunks_nil : chunks [] = [] := by
  rw [chunks]
  rfl

theorem chunks_next (next : nextChunk? lines = some (chunk, rest)) : chunks lines = chunk :: chunks rest := by
  rw [chunks]
  split
  · rename_i atEnd
    cases next.symm.trans atEnd
  · rename_i found
    cases next.symm.trans found
    rfl

theorem nextChunk?_eq_none (atEnd : nextChunk? lines = none) : lines = [] := by
  cases lines with
  | nil => rfl
  | cons line rest =>
    simp only [nextChunk?] at atEnd
    split at atEnd <;> cases atEnd

/-! ### Taking a chunk -/

variable {session before after final : Session} {fuel : Nat}

/-- The lines of a block are taken if the steps suffice for them. -/
theorem readBlock_offers (roomy : session.Roomy) (offers : session.streams.Offers lines) (fuel : Nat) (text : String) :
    readBlock fuel text session =
      if fuel ≤ (lines.takeWhile continues).length then none
      else some (.ok ("\n".intercalate (text :: lines.takeWhile continues)),
        (session.said (Chunk.urging (lines.takeWhile continues))).offering (lines.dropWhile continues).tail) := by
  induction fuel generalizing text session lines with
  | zero =>
    rw [if_pos (Nat.zero_le _)]
    rfl
  | succ fuel ih =>
    have still : (session.said ". ").streams.Offers lines := offers
    rw [readBlock, bind_ok (say_roomy roomy _), bind_ok (hear_offers still)]
    cases lines with
    | nil => rfl
    | cons line later =>
      dsimp only [List.head?_cons, List.tail_cons]
      cases blank : Text.allBlank line.toList with
      | true =>
        have stops : continues line = false := by simp [continues, blank]
        simp only [List.takeWhile_cons, List.dropWhile_cons, stops]
        rfl
      | false =>
        have goes : continues line = true := by simp [continues, blank]
        have room : ((session.said ". ").offering later).Roomy := (roomy.said _).offering later
        rw [if_neg Bool.false_ne_true, ih room rfl]
        simp only [List.takeWhile_cons_of_pos goes, List.dropWhile_cons_of_pos goes, List.length_cons,
          Nat.succ_le_succ_iff]
        split
        · rfl
        · rw [Chunk.urging, ← Session.said_said]
          rfl

/-- The session in which a chunk is run: its lines have been taken, and the prompts have been said. -/
def ready (before : Session) (chunk : Chunk) (rest : List String) : Session :=
  (before.said chunk.prompts).offering rest

theorem ready_roomy (roomy : before.Roomy) (chunk : Chunk) (rest : List String) : (ready before chunk rest).Roomy :=
  (roomy.said _).offering rest

theorem runChunks_atEnd (roomy : before.Roomy) (offers : before.streams.Offers []) (fuel number : Nat) :
    runChunks (fuel + 1) number before = some (.ok number, before.said "> ") := by
  have still : (before.said "> ").streams.Offers [] := offers
  rw [runChunks, bind_ok (say_roomy roomy _), bind_ok (hear_offers still), List.tail_nil, Session.offering_self still]
  rfl

theorem runChunks_next (roomy : before.Roomy) (offers : before.streams.Offers lines)
    (next : nextChunk? lines = some (chunk, rest)) (fuel number : Nat) :
    runChunks (fuel + 1) number before =
      if opensBlock chunk.opening = true ∧ fuel ≤ chunk.further.length then none
      else (runChunk fuel s!"<repl:{number + 1}>" chunk.text >>= fun _ => runChunks fuel (number + 1))
        (ready before chunk rest) := by
  cases lines with
  | nil => cases next
  | cons line later =>
    have still : (before.said "> ").streams.Offers (line :: later) := offers
    rw [runChunks, bind_ok (say_roomy roomy _), bind_ok (hear_offers still)]
    dsimp only [List.head?_cons, List.tail_cons]
    rw [nextChunk?] at next
    by_cases block : opensBlock line = true
    · rw [if_pos block] at next
      cases next
      have room : ((before.said "> ").offering later).Roomy := (roomy.said _).offering later
      have read := readBlock_offers room rfl fuel line
      rw [if_pos block]
      by_cases short : fuel ≤ (later.takeWhile continues).length
      · rw [if_pos short] at read
        rw [if_pos ⟨block, short⟩]
        exact bind_none read _
      · rw [if_neg short] at read
        rw [if_neg fun both => short both.2, bind_ok read, ready, Chunk.prompts, if_pos block, ← Session.said_said]
        rfl
    · rw [if_neg block] at next
      cases next
      rw [if_neg block, if_neg fun both => block both.1, ready, Chunk.prompts, if_neg block]
      exact bind_ok rfl _

/-! ### Running a chunk -/

/-- What becomes of a session by a chunk, and the configurations that its statements pass through. -/
inductive Runs (name text : String) (session : Session) : List Config → Session → Prop
  | unreadable {problem : TokenError} (unread : (Source.ofText name text).tokens.result = .error problem) :
      Runs name text session []
        ((session.noteAll (Source.ofText name text).tokens.events).complained (complaint (.unreadable problem)))
  | settled {tokens : List Token} {passed : List Config} {final : Session}
      (lexed : (Source.ofText name text).tokens.result = .ok tokens)
      (settles : Settles tokens (session.noteAll (Source.ofText name text).tokens.events) passed final) :
      Runs name text session passed final

variable {name text : String} {passed : List Config}

theorem runs_of_runChunk (roomy : session.Roomy) {reply : Except StreamError Unit}
    (ran : runChunk fuel name text session = some (reply, final)) :
    reply = .ok () ∧ ∃ passed, Runs name text session passed final := by
  cases lexed : (Source.ofText name text).tokens.result with
  | error problem =>
    cases (runChunk_unreadable roomy lexed fuel).symm.trans ran
    exact ⟨rfl, [], .unreadable lexed⟩
  | ok tokens =>
    obtain ⟨fine, passed, settles⟩ := settles_of_runChunk roomy lexed ran
    exact ⟨fine, passed, .settled lexed settles⟩

theorem Runs.runChunk (runs : Runs name text session passed final) (roomy : session.Roomy) :
    ∃ fuel, ∀ more, fuel ≤ more → runChunk more name text session = some (.ok (), final) := by
  cases runs with
  | unreadable unread => exact ⟨0, fun more _ => runChunk_unreadable roomy unread more⟩
  | settled lexed settles =>
    obtain ⟨fuel, ran⟩ := settles.runStatements (roomy.noted _)
    exact ⟨fuel, fun more le => (runChunk_lexed lexed more).trans (ran more le)⟩

theorem Runs.unique {last : Session} {others : List Config} (runs : Runs name text session passed final)
    (again : Runs name text session others last) (roomy : session.Roomy) : final = last :=
  reached_unique (runs.runChunk roomy) (again.runChunk roomy)

theorem Settles.roomy {tokens : List Token} (settles : Settles tokens session passed final) (roomy : session.Roomy) :
    final.Roomy := by
  induction settles with
  | done => exact roomy
  | stuck => exact (roomy.noted _).complained _
  | failed next read evaluates => exact ((roomy.noted _).evaluated evaluates).complained _
  | passed next read evaluates rest ih => exact ih (((roomy.noted _).evaluated evaluates).said _)

theorem Runs.roomy (runs : Runs name text session passed final) (roomy : session.Roomy) : final.Roomy := by
  cases runs with
  | unreadable => exact (roomy.noted _).complained _
  | settled lexed settles => exact settles.roomy (roomy.noted _)

/-- The statements of a chunk take the lines that their questions are answered with. -/
theorem Settles.offers {tokens : List Token} (settles : Settles tokens session passed final)
    (offers : session.streams.Offers lines) :
    ∃ rest, final.streams.Offers rest ∧ lines = passed.filterMap Config.answer? ++ rest := by
  induction settles generalizing lines with
  | done => exact ⟨lines, offers, rfl⟩
  | stuck => exact ⟨lines, offers, rfl⟩
  | failed next read evaluates => exact evaluates.offers offers
  | passed next read evaluates rest ih =>
    obtain ⟨middle, still, taken⟩ := evaluates.offers offers
    obtain ⟨rest, last, heard⟩ := ih still
    refine ⟨rest, last, ?_⟩
    rw [taken, heard, List.filterMap_append, List.append_assoc]

theorem Runs.offers (runs : Runs name text session passed final) (offers : session.streams.Offers lines) :
    ∃ rest, final.streams.Offers rest ∧ lines = passed.filterMap Config.answer? ++ rest := by
  cases runs with
  | unreadable => exact ⟨lines, offers, rfl⟩
  | settled lexed settles => exact settles.offers offers

/-! ### Exchanges -/

/-- One exchange at the prompt: from the lines at hand a chunk is taken, and it is run where the session then stands. -/
inductive Exchange.Happens (number : Nat) (before : Session) : Exchange → Session → Prop
  | intro {lines rest : List String} {chunk : Chunk} {passed : List Config} {fuel : Nat} {after : Session}
      (offers : before.streams.Offers lines) (next : nextChunk? lines = some (chunk, rest))
      (ran : runChunk fuel s!"<repl:{number}>" chunk.text (ready before chunk rest) = some (.ok (), after))
      (runs : Runs s!"<repl:{number}>" chunk.text (ready before chunk rest) passed after) :
      Happens number before ⟨chunk, passed.filterMap Config.answer?⟩ after

/-- The exchanges that lead from the start of a session to where it stands, numbered from one. -/
inductive Follows (start : Session) : List Exchange → Session → Prop
  | start : Follows start [] start
  | next {exchanges : List Exchange} {exchange : Exchange} {before after : Session}
      (earlier : Follows start exchanges before) (happens : exchange.Happens (exchanges.length + 1) before after) :
      Follows start (exchanges ++ [exchange]) after

namespace Exchange.Happens

variable {number : Nat} {exchange : Exchange}

theorem roomy (happens : exchange.Happens number before after) (room : before.Roomy) : after.Roomy := by
  obtain ⟨_, _, _, runs⟩ := happens
  exact runs.roomy (ready_roomy room ..)

/-- An exchange takes its lines from the input. -/
theorem offers (happens : exchange.Happens number before after) (offered : before.streams.Offers lines) :
    ∃ rest, after.streams.Offers rest ∧ lines = exchange.lines ++ rest := by
  obtain ⟨offers, next, _, runs⟩ := happens
  have same := Streams.Offers.unique offers offered
  subst same
  obtain ⟨rest, still, taken⟩ := runs.offers rfl
  refine ⟨rest, still, ?_⟩
  rw [nextChunk?_lines next, taken, Exchange.lines, List.append_assoc]

end Exchange.Happens

namespace Follows

variable {start : Session} {exchanges : List Exchange}

theorem roomy (follows : Follows start exchanges session) (room : start.Roomy) : session.Roomy := by
  induction follows with
  | start => exact room
  | next earlier happens ih => exact happens.roomy ih

/-- The exchanges take their lines from the input, one after the other. -/
theorem offers (follows : Follows start exchanges session) (offered : start.streams.Offers lines) :
    ∃ rest, session.streams.Offers rest ∧ lines = exchanges.flatMap Exchange.lines ++ rest := by
  induction follows with
  | start => exact ⟨lines, offered, rfl⟩
  | next earlier happens ih =>
    obtain ⟨middle, still, taken⟩ := ih
    obtain ⟨rest, last, more⟩ := happens.offers still
    refine ⟨rest, last, ?_⟩
    rw [taken, more, List.flatMap_append, List.flatMap_singleton, List.append_assoc]

/-- If no question is answered then the chunks are those of the lines. -/
theorem chunks (follows : Follows start exchanges session) (offered : start.streams.Offers lines)
    (left : session.streams.Offers rest) (unasked : ∀ exchange ∈ exchanges, exchange.answers = []) :
    Prompt.chunks lines = exchanges.map Exchange.chunk ++ Prompt.chunks rest := by
  induction follows generalizing rest with
  | start =>
    rw [offered.unique left]
    rfl
  | @next exchanges exchange before after earlier happens ih =>
    obtain ⟨others, last⟩ := List.forall_mem_append.mp unasked
    have silent := last exchange (List.mem_singleton_self exchange)
    obtain ⟨offers, next, _, runs⟩ := happens
    obtain ⟨still, remaining, taken⟩ := runs.offers rfl
    have same := remaining.unique left
    subst same
    dsimp only at silent
    rw [ih offers others, chunks_next next, taken, silent, List.map_append, List.append_assoc]
    rfl

end Follows

/-! ### The session as a whole -/

variable {start : Session} {exchanges : List Exchange}

/-- What is needed for the next exchange, if the chunk comes to an end. -/
theorem happens_of_runChunk {number : Nat} (roomy : before.Roomy) (offers : before.streams.Offers lines)
    (next : nextChunk? lines = some (chunk, rest)) {reply : Except StreamError Unit}
    (ran : runChunk fuel s!"<repl:{number}>" chunk.text (ready before chunk rest) = some (reply, after)) :
    reply = .ok () ∧ ∃ answers, Exchange.Happens number before ⟨chunk, answers⟩ after := by
  obtain ⟨rfl, passed, runs⟩ := runs_of_runChunk (ready_roomy roomy ..) ran
  exact ⟨rfl, passed.filterMap Config.answer?, .intro offers next ran runs⟩

/-- If the session goes on to its end then so does the chunk that is next. -/
theorem runChunk_of_runChunks {number : Nat} (roomy : before.Roomy) (offers : before.streams.Offers lines)
    (next : nextChunk? lines = some (chunk, rest)) {ended : Except StreamError Nat × Session}
    (ran : runChunks (fuel + 1) number before = some ended) :
    ∃ after, runChunk fuel s!"<repl:{number + 1}>" chunk.text (ready before chunk rest) = some (.ok (), after) ∧
      runChunks fuel (number + 1) after = some ended := by
  rw [runChunks_next roomy offers next] at ran
  split at ran
  · cases ran
  · cases chunked : runChunk fuel s!"<repl:{number + 1}>" chunk.text (ready before chunk rest) with
    | none => cases (bind_none chunked _).symm.trans ran
    | some result =>
      obtain ⟨reply, after⟩ := result
      obtain ⟨rfl, _⟩ := runs_of_runChunk (ready_roomy roomy chunk rest) chunked
      exact ⟨after, rfl, (bind_ok chunked _).symm.trans ran⟩

/-- A session that comes to its end has gone from exchange to exchange, to the last line. -/
theorem follows_of_runChunks (roomy : before.Roomy) (offers : before.streams.Offers lines)
    (follows : Follows start exchanges before) {reply : Except StreamError Nat}
    (ran : runChunks fuel exchanges.length before = some (reply, final)) :
    ∃ all last, Follows start all last ∧ last.streams.Offers [] ∧ reply = .ok all.length ∧ final = last.said "> " := by
  induction fuel generalizing exchanges before lines with
  | zero => cases ran
  | succ fuel ih =>
    cases next : nextChunk? lines with
    | none =>
      have atEnd := nextChunk?_eq_none next
      subst atEnd
      cases (runChunks_atEnd roomy offers fuel _).symm.trans ran
      exact ⟨exchanges, before, follows, offers, rfl, rfl⟩
    | some found =>
      obtain ⟨chunk, rest⟩ := found
      obtain ⟨after, chunked, onward⟩ := runChunk_of_runChunks roomy offers next ran
      obtain ⟨_, answers, happens⟩ := happens_of_runChunk roomy offers next chunked
      obtain ⟨left, still, _⟩ := happens.offers offers
      have counted (exchange : Exchange) : (exchanges ++ [exchange]).length = exchanges.length + 1 := List.length_append
      rw [← counted ⟨chunk, answers⟩] at onward
      exact ih (happens.roomy roomy) still (follows.next happens) onward

/-- Each chunk that the session comes to comes to its end. -/
def ChunksEnd (start : Session) : Prop :=
  ∀ exchanges before lines chunk rest, Follows start exchanges before → before.streams.Offers lines →
    nextChunk? lines = some (chunk, rest) →
    ∃ fuel, (runChunk fuel s!"<repl:{exchanges.length + 1}>" chunk.text (ready before chunk rest)).isSome

theorem ChunksEnd.runChunks (ends : ChunksEnd start) (room : start.Roomy) (follows : Follows start exchanges before)
    (offers : before.streams.Offers lines) :
    ∃ fuel, ∀ more, fuel ≤ more → (Prompt.runChunks more exchanges.length before).isSome := by
  have roomy := follows.roomy room
  induction size : lines.length using Nat.strongRecOn generalizing exchanges before lines with
  | _ length ih =>
    subst size
    cases next : nextChunk? lines with
    | none =>
      have atEnd := nextChunk?_eq_none next
      subst atEnd
      refine ⟨1, fun more le => ?_⟩
      obtain ⟨more, rfl⟩ := Nat.exists_eq_add_of_le' le
      rw [runChunks_atEnd roomy offers]
      rfl
    | some found =>
      obtain ⟨chunk, rest⟩ := found
      obtain ⟨steps, ended⟩ := ends exchanges before lines chunk rest follows offers next
      obtain ⟨⟨reply, after⟩, ran⟩ := Option.isSome_iff_exists.mp ended
      obtain ⟨rfl, answers, happens⟩ := happens_of_runChunk roomy offers next ran
      obtain ⟨left, still, taken⟩ := happens.offers offers
      have fewer : left.length < lines.length := by
        rw [taken, Exchange.lines, Chunk.lines]
        simp
        omega
      obtain ⟨fuel, onward⟩ := ih _ fewer (follows.next happens) still (happens.roomy roomy) rfl
      obtain ⟨_, passed, runs⟩ := runs_of_runChunk (ready_roomy roomy chunk rest) ran
      obtain ⟨enough, chunked⟩ := runs.runChunk (ready_roomy roomy chunk rest)
      refine ⟨max (max fuel enough) (chunk.further.length + 1) + 1, fun more le => ?_⟩
      obtain ⟨more, rfl⟩ := Nat.exists_eq_add_of_le' (Nat.le_trans (Nat.le_add_left 1 _) le)
      have counted (exchange : Exchange) : (exchanges ++ [exchange]).length = exchanges.length + 1 := List.length_append
      rw [runChunks_next roomy offers next, if_neg (by omega), bind_ok (chunked more (by omega)),
        ← counted ⟨chunk, answers⟩]
      exact onward more (by omega)

/-- If the session comes to its end then it does so from wherever its exchanges lead. -/
theorem Follows.runChunks (follows : Follows start exchanges before) (room : start.Roomy)
    (ends : ∃ fuel, (runChunks fuel 0 start).isSome) :
    ∃ fuel, (Prompt.runChunks fuel exchanges.length before).isSome := by
  induction follows with
  | start => exact ends
  | @next exchanges exchange before after earlier happens ih =>
    obtain ⟨fuel, ended⟩ := ih
    obtain ⟨result, ran⟩ := Option.isSome_iff_exists.mp ended
    have roomy := earlier.roomy room
    obtain ⟨offers, next, _, runs⟩ := happens
    cases fuel with
    | zero => cases ran
    | succ fuel =>
      obtain ⟨last, chunked, onward⟩ := runChunk_of_runChunks roomy offers next ran
      obtain ⟨_, _, again⟩ := runs_of_runChunk (ready_roomy roomy ..) chunked
      obtain rfl := runs.unique again (ready_roomy roomy ..)
      refine ⟨fuel, ?_⟩
      rw [List.length_append]
      exact Option.isSome_iff_exists.mpr ⟨result, onward⟩

/-- The session comes to its end just if each of its chunks does. -/
theorem runChunks_isSome (room : start.Roomy) (offers : start.streams.Offers lines) :
    (∃ fuel, (runChunks fuel 0 start).isSome) ↔ ChunksEnd start := by
  constructor
  · intro ends exchanges before lines chunk rest follows offered next
    obtain ⟨fuel, ended⟩ := follows.runChunks room ends
    obtain ⟨result, ran⟩ := Option.isSome_iff_exists.mp ended
    cases fuel with
    | zero => cases ran
    | succ fuel =>
      obtain ⟨after, chunked, _⟩ := runChunk_of_runChunks (follows.roomy room) offered next ran
      exact ⟨fuel, Option.isSome_iff_exists.mpr ⟨_, chunked⟩⟩
  · intro ends
    obtain ⟨fuel, enough⟩ := ends.runChunks room .start offers
    exact ⟨fuel, enough fuel (Nat.le_refl fuel)⟩

end Prompt
end Parlance
