import Parlance.Proofs.Prompt.Exchange
import Parlance.Proofs.Text.Bytes

/-! A session at the prompt, from its first line to its last. It goes from exchange to exchange until the input is used up,
and nothing that goes wrong in a chunk ends it. -/
namespace Parlance

theorem RawLine.offers_ofBytes {streams : Streams} {text : String} (input : streams.input = ofBytes text.toUTF8) :
    streams.Offers ((Text.splitLines '\n' '\r' text.toList).map String.ofList) := by
  rw [Streams.Offers, input, ofBytes_toUTF8, ofText, List.map_map]
  rfl

namespace Prompt

open Dialogue

variable {session final : Session}

/-- The session after its last exchange, when the input has ended. -/
def closing (last : Session) (exchanges : Nat) : Session :=
  ((last.said "> ").said "\n").noteAll [.promptEnded exchanges]

theorem run_closing {reply : Except StreamError Unit} {fuel : Nat} {lines : List String} (roomy : session.Roomy)
    (offers : session.streams.Offers lines) (ran : run fuel session = some (reply, final)) :
    reply = .ok () ∧ ∃ exchanges last, Follows (session.said (banner ++ "\n")) exchanges last ∧ last.streams.Offers [] ∧
      final = closing last exchanges.length := by
  have greeted := roomy.said (banner ++ "\n")
  rw [run, bind_ok (say_roomy roomy _)] at ran
  cases chunked : runChunks fuel 0 (session.said (banner ++ "\n")) with
  | none => cases (bind_none chunked _).symm.trans ran
  | some ended =>
    obtain ⟨result, after⟩ := ended
    obtain ⟨exchanges, last, follows, atEnd, rfl, rfl⟩ := follows_of_runChunks greeted offers .start chunked
    have room := (follows.roomy greeted).said "> "
    rw [bind_ok chunked, bind_ok (say_roomy room _)] at ran
    cases ran
    exact ⟨rfl, exchanges, last, follows, atEnd, rfl⟩

theorem run_isSome {lines : List String} (roomy : session.Roomy) (offers : session.streams.Offers lines) :
    (∃ fuel, (run fuel session).isSome) ↔ ChunksEnd (session.said (banner ++ "\n")) := by
  have greeted := roomy.said (banner ++ "\n")
  rw [← runChunks_isSome greeted offers]
  refine exists_congr fun fuel => ?_
  rw [run, bind_ok (say_roomy roomy _)]
  cases chunked : runChunks fuel 0 (session.said (banner ++ "\n")) with
  | none =>
    rw [bind_none chunked]
    exact Iff.rfl
  | some ended =>
    obtain ⟨result, after⟩ := ended
    obtain ⟨exchanges, last, follows, _, rfl, rfl⟩ := follows_of_runChunks greeted offers .start chunked
    rw [bind_ok chunked, bind_ok (say_roomy ((follows.roomy greeted).said "> ") _)]
    rfl

/-- A session comes to its end just if each of its chunks does. Then it has gone from exchange to exchange, each chunk
named by its number and run in the scopes that the one before has left. The lines that the chunks are made of and those that
questions are answered with are the lines of the input, each of them once and in their order, and none is left. If no
question is answered then the chunks are those that the lines alone make. -/
theorem run_hears_every_line {text : String} (output : session.streams.output.room = none)
    (error : session.streams.error.room = none) (input : session.streams.input = RawLine.ofBytes text.toUTF8) :
    ((∃ fuel, (run fuel session).isSome) ↔ ChunksEnd (session.said (banner ++ "\n"))) ∧
    ∀ fuel reply final, run fuel session = some (reply, final) →
      reply = .ok () ∧ final.streams.input = [] ∧
      ∃ exchanges last, Follows (session.said (banner ++ "\n")) exchanges last ∧ final = closing last exchanges.length ∧
        exchanges.flatMap Exchange.lines = (Text.splitLines '\n' '\r' text.toList).map String.ofList ∧
        ((∀ exchange ∈ exchanges, exchange.answers = []) →
          exchanges.map Exchange.chunk = chunks ((Text.splitLines '\n' '\r' text.toList).map String.ofList)) := by
  have roomy : session.Roomy := ⟨output, error⟩
  have offers := RawLine.offers_ofBytes input
  refine ⟨run_isSome roomy offers, ?_⟩
  intro fuel reply final ran
  obtain ⟨fine, exchanges, last, follows, atEnd, rfl⟩ := run_closing roomy offers ran
  refine ⟨fine, atEnd, exchanges, last, follows, rfl, ?_, ?_⟩
  · obtain ⟨rest, left, taken⟩ := follows.offers offers
    rw [taken, left.unique atEnd, List.append_nil]
  · intro unasked
    rw [follows.chunks offers atEnd unasked, chunks_nil, List.append_nil]

/-- The question in the block takes the line after it, and the chunk that fails does not keep the next from the answer. -/
theorem run_hears_every_line_asking :
    ∃ session text final, text = "if true\n  the name is ask of\n\nhéron\nbreak\r\nthe name" ∧
      session = Session.start (.ofInput (RawLine.ofText text)) .silent ∧
      ChunksEnd (session.said (banner ++ "\n")) ∧ run 40 session = some (.ok (), final) ∧
      final.streams.output.written = banner ++ "\n> . . > > => héron\n> \n" ∧ final.streams.input = [] ∧
      ∃ exchanges last, Follows (session.said (banner ++ "\n")) exchanges last ∧
        exchanges.flatMap Exchange.lines = ["if true", "  the name is ask of", "", "héron", "break", "the name"] := by
  have ran : ∃ session text, text = "if true\n  the name is ask of\n\nhéron\nbreak\r\nthe name" ∧
      session = Session.start (.ofInput (RawLine.ofText text)) .silent ∧
      session.streams = .ofInput (RawLine.ofText text) ∧
      (Text.splitLines '\n' '\r' text.toList).map String.ofList =
        ["if true", "  the name is ask of", "", "héron", "break", "the name"] ∧
      (run 40 session).map (fun ended => ended.2.streams.output.written) =
        some (banner ++ "\n> . . > > => héron\n> \n") :=
    ⟨_, _, rfl, rfl, rfl, by decide +kernel, by decide +kernel⟩
  obtain ⟨session, text, given, new, streams, cut, said⟩ := ran
  obtain ⟨⟨reply, final⟩, ran, written⟩ := Option.map_eq_some_iff.mp said
  have input : session.streams.input = RawLine.ofBytes text.toUTF8 := by
    rw [streams, RawLine.ofBytes_toUTF8]
    rfl
  obtain ⟨ends, heard⟩ := @run_hears_every_line session text (by rw [streams]; rfl) (by rw [streams]; rfl) input
  obtain ⟨rfl, used, exchanges, last, follows, _, lines, _⟩ := heard 40 reply final ran
  have chunksEnd := ends.mp ⟨40, Option.isSome_iff_exists.mpr ⟨_, ran⟩⟩
  exact ⟨session, text, final, given, new, chunksEnd, ran, written, used, exchanges, last, follows, lines.trans cut⟩

end Prompt
end Parlance
