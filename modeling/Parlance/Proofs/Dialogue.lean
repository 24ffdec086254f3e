import Parlance.Proofs.Moment

/-! The interactive session as moves of a host. Whatever it reads, it only talks to the streams and evaluates statements
that the chunks offer, one after the other, in the root scope. -/
namespace Parlance

open Moment

namespace Dialogue

variable {permits : Request → Prop} {α β : Type}

/-- However the dialogue goes, it is made of permitted moves. -/
def Leads (permits : Request → Prop) (dialogue : Dialogue α) : Prop :=
  ∀ held session result after, dialogue session = some (result, after) →
    ∃ more, Later permits ⟨held, .idle session⟩ ⟨more, .idle after⟩

theorem leads_pure (a : α) : Leads permits (pure a : Dialogue α) := by
  intro held session result after talked
  cases talked
  exact ⟨held, .refl⟩

theorem leads_bind {dialogue : Dialogue α} {next : α → Dialogue β} (first : Leads permits dialogue)
    (second : ∀ a, Leads permits (next a)) : Leads permits (dialogue >>= next) := by
  intro held session result after talked
  have opened : (dialogue >>= next) session = (dialogue session).bind fun (result, middle) =>
      match result with
      | .ok a => next a middle
      | .error error => some (.error error, middle) := by
    show ((dialogue session).bind _ : Option _) = _
    cases dialogue session with
    | none => rfl
    | some reached =>
      obtain ⟨_ | _, middle⟩ := reached <;> rfl
  rw [opened] at talked
  obtain ⟨⟨result₁, middle⟩, reached, rest⟩ := Option.bind_eq_some_iff.mp talked
  obtain ⟨more, path⟩ := first held session result₁ middle reached
  cases result₁ with
  | error error =>
    cases rest
    exact ⟨more, path⟩
  | ok a =>
    obtain ⟨final, onward⟩ := second a more middle result after rest
    exact ⟨final, path.trans onward⟩

theorem leads_say (text : String) : Leads permits (say text) := by
  intro held session result after talked
  cases talked
  exact ⟨held, .single (.talk held session _ _)⟩

theorem leads_complain (text : String) : Leads permits (complain text) := by
  intro held session result after talked
  cases talked
  exact ⟨held, .single (.talk held session _ _)⟩

theorem leads_hear : Leads permits hear := by
  intro held session result after talked
  cases talked
  exact ⟨held, .single (.talk held session _ _)⟩

theorem leads_note (events : List Event) : Leads permits (note events) := by
  intro held session result after talked
  cases talked
  exact ⟨held, Session.noteAll_later held session events⟩

theorem leads_evaluate (fuel : Nat) {node : Node} (allowed : permits (.statement node)) :
    Leads permits (evaluate fuel node) := by
  intro held session result after talked
  obtain ⟨⟨outcome, final⟩, ended, rest⟩ := Option.bind_eq_some_iff.mp talked
  cases rest
  exact ⟨_, Session.eval_later held allowed ended⟩

theorem leads_exhausted : Leads permits (exhausted : Dialogue α) := by
  intro held session result after talked
  cases talked

end Dialogue

namespace Prompt

open Dialogue

variable {permits : Request → Prop}

/-- A statement that a chunk's tokens give once all statements before it have been read. -/
inductive Offers : List Token → Node → Prop
  | here {tokens after : List Token} {sentence : Sentence} {node : Node}
      (next : Sentence.next? tokens = some (sentence, after))
      (read : (Statement.read sentence after).result = .ok node) : Offers tokens node
  | later {tokens after : List Token} {sentence : Sentence} {first node : Node}
      (next : Sentence.next? tokens = some (sentence, after))
      (read : (Statement.read sentence after).result = .ok first)
      (offered : Offers (Statement.read sentence after).rest node) : Offers tokens node

theorem readBlock_leads (fuel : Nat) (chunk : String) : Leads permits (readBlock fuel chunk) := by
  induction fuel generalizing chunk with
  | zero => exact leads_exhausted
  | succ fuel ih =>
    refine leads_bind (leads_say ". ") fun _ => leads_bind leads_hear fun heard => ?_
    cases heard with
    | none => exact leads_pure chunk
    | some line =>
      dsimp only
      split
      · exact leads_pure chunk
      · exact ih _

theorem runStatements_leads (fuel : Nat) (tokens : List Token)
    (allowed : ∀ node, Offers tokens node → permits (.statement node)) : Leads permits (runStatements fuel tokens) := by
  induction size : tokens.length using Nat.strongRecOn generalizing tokens with
  | _ length ih =>
    unfold runStatements
    split
    · exact leads_pure ()
    · rename_i sentence after next
      refine leads_bind (leads_note _) fun _ => ?_
      split
      · exact leads_complain _
      · rename_i node read
        refine leads_bind (leads_evaluate fuel (allowed node (.here next read))) fun outcome => ?_
        cases outcome with
        | error escape => exact leads_complain _
        | ok value =>
          have shorter : (Statement.read sentence after).rest.length < length := by
            have := Sentence.next?_shorter next
            have := (Statement.read sentence after).within.length_le
            omega
          have onward := ih _ shorter (Statement.read sentence after).rest
            (fun later offered => allowed later (.later next read offered)) rfl
          dsimp only
          split
          · exact leads_bind (leads_pure ()) fun _ => onward
          · exact leads_bind (leads_say _) fun _ => onward

theorem runChunk_leads (fuel : Nat) (name text : String)
    (allowed : ∀ tokens node, (Source.ofText name text).tokens.result = .ok tokens → Offers tokens node →
      permits (.statement node)) : Leads permits (runChunk fuel name text) := by
  refine leads_bind (leads_note _) fun _ => ?_
  split
  · exact leads_complain _
  · rename_i tokens lexed
    exact runStatements_leads fuel tokens fun node offered => allowed tokens node lexed offered

variable (allowed : ∀ name text tokens node, (Source.ofText name text).tokens.result = .ok tokens →
  Offers tokens node → permits (.statement node))

include allowed

theorem runChunks_leads (fuel chunks : Nat) : Leads permits (runChunks fuel chunks) := by
  induction fuel generalizing chunks with
  | zero => exact leads_exhausted
  | succ fuel ih =>
    refine leads_bind (leads_say "> ") fun _ => leads_bind leads_hear fun heard => ?_
    cases heard with
    | none => exact leads_pure chunks
    | some line =>
      have onward : ∀ text, Leads permits (runChunk fuel s!"<repl:{chunks + 1}>" text >>= fun _ =>
          runChunks fuel (chunks + 1)) :=
        fun text => leads_bind (runChunk_leads fuel _ text (allowed _ text)) fun _ => ih (chunks + 1)
      dsimp only
      split
      · exact leads_bind (readBlock_leads fuel line) onward
      · exact leads_bind (leads_pure line) onward

theorem run_leads (fuel : Nat) : Leads permits (run fuel) :=
  leads_bind (leads_say _) fun _ => leads_bind (runChunks_leads allowed fuel 0) fun _ =>
    leads_bind (leads_say _) fun _ => leads_note _

end Prompt

/-! ### Entry points -/

namespace Moment.Reachable

variable {permits : Request → Prop} {held : List Value} {session after : Session} {fuel : Nat}

theorem execute (reached : Reachable permits ⟨held, .idle session⟩) {source : Source}
    {result : Except ProgramError Value}
    (allowed : ∀ program, source.program.result = .ok program → permits (.run program))
    (ran : session.execute fuel source = some (result, after)) :
    ∃ more, Reachable permits ⟨more, .idle after⟩ := by
  obtain ⟨more, path⟩ := Session.execute_later held allowed ran
  exact ⟨more, reached.later path⟩

theorem prompt (reached : Reachable permits ⟨held, .idle session⟩) {result : Except StreamError Unit}
    (allowed : ∀ name text tokens node, (Source.ofText name text).tokens.result = .ok tokens →
      Prompt.Offers tokens node → permits (.statement node))
    (talked : Prompt.run fuel session = some (result, after)) :
    ∃ more, Reachable permits ⟨more, .idle after⟩ := by
  obtain ⟨more, path⟩ := Prompt.run_leads allowed fuel held session result after talked
  exact ⟨more, reached.later path⟩

end Moment.Reachable
end Parlance
