import Mathlib.Logic.Relation
import Parlance.Node.Statement
import Parlance.Proofs.Node.Reader

/-! Which readers call which. The log names the first word of each statement as its reading begins, so it can be held
against the calls: whatever a reader reports, it has called for, directly or through others. -/
namespace Parlance

/-- A call of one of the readers. -/
inductive Reading where
  | program (tokens : List Token)
  | statement (sentence : Sentence) (tokens : List Token)
  | conditional (keyword : Token) (words : List Token) (stop : Span) (tokens : List Token)
  | loop (keyword : Token) (words : List Token) (stop : Span) (tokens : List Token)
  | definition (keyword : Token) (words : List Token) (stop : Span) (tokens : List Token)
  | block (anchor : Span) (tokens : List Token)
  | rest (anchor : Span) (tokens : List Token)

namespace Reading

/-- Which readers a reader calls. What the words of a line come to is left out: a call that a fault in the words
prevents is listed all the same. -/
inductive Calls : Reading → Reading → Prop
  | statement {tokens after : List Token} {sentence : Sentence}
      (next : Sentence.next? tokens = some (sentence, after)) :
      Calls (.program tokens) (.statement sentence after)
  | further {tokens after : List Token} {sentence : Sentence} {node : Node}
      (next : Sentence.next? tokens = some (sentence, after))
      (read : (Statement.read sentence after).result = .ok node) :
      Calls (.program tokens) (.program (Statement.read sentence after).rest)
  | conditional {sentence : Sentence} {keyword : Token} {words tokens : List Token}
      (spelled : sentence.words = keyword :: words) (kind : keyword.kind = .keyword .ifWord) :
      Calls (.statement sentence tokens) (.conditional keyword words sentence.stop tokens)
  | loop {sentence : Sentence} {keyword : Token} {words tokens : List Token}
      (spelled : sentence.words = keyword :: words) (kind : keyword.kind = .keyword .whileWord) :
      Calls (.statement sentence tokens) (.loop keyword words sentence.stop tokens)
  | definition {sentence : Sentence} {keyword : Token} {words tokens : List Token}
      (spelled : sentence.words = keyword :: words) (kind : keyword.kind = .keyword .byWord) :
      Calls (.statement sentence tokens) (.definition keyword words sentence.stop tokens)
  | thenBlock (keyword : Token) (words : List Token) (stop : Span) (tokens : List Token) :
      Calls (.conditional keyword words stop tokens) (.block stop tokens)
  | elseBlock {keyword word : Token} {words tokens after : List Token} {stop : Span} {block : List Node}
      {sentence : Sentence} (read : (Statement.readBlock stop tokens).result = .ok block)
      (led : Sentence.led? .otherwiseWord (Statement.readBlock stop tokens).rest = some (word, sentence, after)) :
      Calls (.conditional keyword words stop tokens) (.block sentence.stop after)
  | otif {keyword word : Token} {words tokens after : List Token} {stop : Span} {block : List Node}
      {sentence : Sentence} (read : (Statement.readBlock stop tokens).result = .ok block)
      (led : Sentence.led? .otifWord (Statement.readBlock stop tokens).rest = some (word, sentence, after)) :
      Calls (.conditional keyword words stop tokens) (.conditional word sentence.words sentence.stop after)
  | body (keyword : Token) (words : List Token) (stop : Span) (tokens : List Token) :
      Calls (.loop keyword words stop tokens) (.block stop tokens)
  | otherwise {keyword word : Token} {words tokens after : List Token} {stop : Span} {block : List Node}
      {sentence : Sentence} (read : (Statement.readBlock stop tokens).result = .ok block)
      (led : Sentence.led? .otherwiseWord (Statement.readBlock stop tokens).rest = some (word, sentence, after)) :
      Calls (.loop keyword words stop tokens) (.block sentence.stop after)
  | procedure (keyword : Token) (words : List Token) (stop : Span) (tokens : List Token) :
      Calls (.definition keyword words stop tokens) (.block stop tokens)
  | inside {anchor : Span} {tokens : List Token} {token : Token}
      (opened : (Token.consume .beginIndent anchor tokens).result = .ok token) :
      Calls (.block anchor tokens) (.rest anchor (Token.consume .beginIndent anchor tokens).rest)
  | nested {anchor : Span} {token : Token} {tokens after : List Token} {sentence : Sentence}
      (within : token.kind ≠ .endIndent) (next : Sentence.next? (token :: tokens) = some (sentence, after)) :
      Calls (.rest anchor (token :: tokens)) (.statement sentence after)
  | onward {anchor : Span} {token : Token} {tokens after : List Token} {sentence : Sentence} {node : Node}
      (within : token.kind ≠ .endIndent) (next : Sentence.next? (token :: tokens) = some (sentence, after))
      (read : (Statement.read sentence after).result = .ok node) :
      Calls (.rest anchor (token :: tokens)) (.rest anchor (Statement.read sentence after).rest)

open Relation (ReflTransGen)

/-- A statement that begins with the token is called for. -/
def Heard (reading : Reading) (first : Token) : Prop :=
  ∃ sentence tokens words, ReflTransGen Calls reading (.statement sentence tokens) ∧ sentence.words = first :: words

theorem Heard.call {caller reading : Reading} {first : Token} (heard : reading.Heard first)
    (calls : caller.Calls reading) : caller.Heard first := by
  obtain ⟨sentence, tokens, words, reached, spelled⟩ := heard
  exact ⟨sentence, tokens, words, .head calls reached, spelled⟩

end Reading

namespace Traced

variable {ε α β : Type}

/-- No statement is reported. -/
def Mute (traced : Traced ε α) : Prop :=
  ∀ first, .statement first ∉ traced.events

theorem mute_pure (a : α) : (pure a : Traced ε α).Mute :=
  fun _ => List.not_mem_nil

theorem mute_fail (error : ε) : (fail error : Traced ε α).Mute :=
  fun _ => List.not_mem_nil

theorem mute_ofExcept (result : Except ε α) : (ofExcept result).Mute :=
  fun _ => List.not_mem_nil

theorem mute_bind {first : Traced ε α} {next : α → Traced ε β} (before : first.Mute) (after : ∀ a, (next a).Mute) :
    (first >>= next).Mute := by
  intro token reported
  change _ ∈ (Traced.bind first next).events at reported
  unfold Traced.bind at reported
  split at reported
  · exact before token reported
  · rename_i a _
    rcases List.mem_append.mp reported with here | later
    · exact before token here
    · exact after a token later

end Traced

namespace Expression

open Traced

variable {words : List Token} {anchor : Span}

theorem reported_mute (first : Token) (rest : List Token) {next : Traced GrammarError Node} (inner : next.Mute) :
    (report first rest >>= fun _ => next).Mute := by
  have told : (report first rest).Mute := by simp [Mute, report, Traced.tell]
  exact mute_bind told fun _ => inner

theorem readCallee_mute (inner : (read words anchor).Mute) : (readCallee words anchor).Mute := by
  unfold readCallee
  split
  · exact mute_ofExcept _
  · exact inner

theorem readGiven_mute (inner : (read words anchor).Mute) : (readGiven words anchor).Mute := by
  unfold readGiven
  split
  · exact mute_pure _
  · exact mute_bind inner fun argument => mute_pure _

theorem mute_expect (context : String) (inner : (read words anchor).Mute) : (expect words anchor context).Mute := by
  unfold expect
  split
  · exact mute_fail _
  · exact inner

theorem read_mute (words : List Token) (anchor : Span) : (read words anchor).Mute := by
  induction words, anchor using read_induction with
  | nothing anchor => exact mute_fail _
  | called first rest anchor split cut before after =>
    refine reported_mute first rest (mute_bind (readCallee_mute before) fun callee => ?_)
    exact mute_bind (readGiven_mute after) fun arguments => mute_pure _
  | operation first rest anchor operator split noOf cut before after =>
    refine reported_mute first rest (mute_bind (mute_expect _ before) fun left => ?_)
    exact mute_bind (mute_expect _ after) fun right => mute_pure _
  | name first rest anchor noOf free led => exact reported_mute first rest (mute_ofExcept _)
  | atom token anchor noOf free unled => exact reported_mute token [] (mute_ofExcept _)
  | beside first rest anchor noOf free unled filled given =>
    refine reported_mute first rest (mute_bind (mute_ofExcept _) fun callee => ?_)
    exact mute_bind given fun argument => mute_pure _

theorem expect_mute (words : List Token) (anchor : Span) (context : String) : (expect words anchor context).Mute :=
  mute_expect context (read_mute words anchor)

end Expression

namespace Parsed

variable {tokens after : List Token} {α β : Type} {told : Token → Prop}

/-- Every statement that is reported begins with a token of which this holds. -/
def Tells (parsed : Parsed tokens α) (told : Token → Prop) : Prop :=
  ∀ first, .statement first ∈ parsed.events → told first

theorem tells_done (a : α) : (done a : Parsed tokens α).Tells told :=
  fun _ reported => absurd reported List.not_mem_nil

theorem tells_fail (error : GrammarError) : (fail error : Parsed tokens α).Tells told :=
  fun _ reported => absurd reported List.not_mem_nil

theorem tells_ofTraced {traced : Traced GrammarError α} (mute : traced.Mute) :
    (ofTraced traced : Parsed tokens α).Tells told :=
  fun first reported => absurd reported (mute first)

theorem tells_tell {events : List Event} {parsed : Parsed tokens α}
    (before : ∀ first, .statement first ∈ events → told first) (given : parsed.Tells told) :
    (parsed.tell events).Tells told := by
  intro first reported
  rcases List.mem_append.mp reported with here | later
  · exact before first here
  · exact given first later

theorem tells_widen {later : after <:+ tokens} {parsed : Parsed after α} (given : parsed.Tells told) :
    (parsed.widen later).Tells told :=
  given

theorem tells_map {f : α → β} {parsed : Parsed tokens α} (given : parsed.Tells told) : (parsed.map f).Tells told :=
  given

theorem tells_andThen {first : Parsed tokens α} {next : (rest : List Token) → rest <:+ tokens → α → Parsed rest β}
    (before : first.Tells told)
    (after : ∀ a, first.result = .ok a → (next first.rest first.within a).Tells told) :
    (first.andThen next).Tells told := by
  unfold andThen
  split
  · exact before
  · rename_i a read
    exact tells_tell before (after a read)

theorem tells_ofTraced_andThen {traced : Traced GrammarError α}
    {next : (rest : List Token) → rest <:+ tokens → α → Parsed rest β} (mute : traced.Mute)
    (after : ∀ a, (next tokens (List.suffix_refl _) a).Tells told) : ((ofTraced traced).andThen next).Tells told :=
  tells_andThen (tells_ofTraced mute) fun a _ => after a

end Parsed

theorem Parsed.Tells.called {tokens : List Token} {α : Type} {parsed : Parsed tokens α} {caller reading : Reading}
    (given : parsed.Tells reading.Heard) (calls : caller.Calls reading) : parsed.Tells caller.Heard :=
  fun first reported => (given first reported).call calls

namespace Statement

open Reading Parsed

/-- What all readers do on so few tokens that their measures stay below the bound. -/
structure Accounts (bound : Nat) : Prop where
  read : ∀ sentence tokens, 4 * tokens.length + 3 < bound →
    (Statement.read sentence tokens).Tells (Heard (.statement sentence tokens))
  conditional : ∀ keyword words stop tokens, 4 * tokens.length + 2 < bound →
    (readConditional keyword words stop tokens).Tells (Heard (.conditional keyword words stop tokens))
  loop : ∀ keyword words stop tokens, 4 * tokens.length + 2 < bound →
    (readLoop keyword words stop tokens).Tells (Heard (.loop keyword words stop tokens))
  definition : ∀ keyword words stop tokens, 4 * tokens.length + 2 < bound →
    (readDefinition keyword words stop tokens).Tells (Heard (.definition keyword words stop tokens))
  block : ∀ anchor tokens, 4 * tokens.length + 1 < bound →
    (readBlock anchor tokens).Tells (Heard (.block anchor tokens))
  rest : ∀ anchor tokens, 4 * tokens.length < bound → (readRest anchor tokens).Tells (Heard (.rest anchor tokens))

theorem readPlain_mute (first : Token) (words : List Token) (stop : Span) : (readPlain first words stop).Mute := by
  unfold readPlain
  split
  · refine Traced.mute_bind (Traced.mute_ofExcept _) fun target => ?_
    exact Traced.mute_bind (Expression.expect_mute _ _ _) fun value => Traced.mute_pure _
  · exact Expression.read_mute words stop

theorem readReturns_mute (keyword : Token) (words : List Token) (stop : Span) :
    (readReturns keyword words stop).Mute := by
  unfold readReturns
  dsimp only
  split
  · exact Traced.mute_pure _
  · exact Traced.mute_bind (Expression.read_mute words stop) fun value => Traced.mute_pure _

section Readers

variable {tokens : List Token}

theorem read_accounts (sentence : Sentence) (accounts : Accounts (4 * tokens.length + 3)) :
    (Statement.read sentence tokens).Tells (Heard (.statement sentence tokens)) := by
  rw [Statement.read]
  split
  · exact tells_done _
  · rename_i first words spelled
    refine tells_tell ?_ ?_
    · intro token reported
      cases List.mem_singleton.mp reported
      exact ⟨sentence, tokens, words, .refl, spelled⟩
    · split
      · rename_i kind
        exact (accounts.conditional _ _ _ _ (by omega)).called (.conditional spelled kind)
      · rename_i kind
        exact (accounts.loop _ _ _ _ (by omega)).called (.loop spelled kind)
      · rename_i kind
        exact (accounts.definition _ _ _ _ (by omega)).called (.definition spelled kind)
      · exact tells_ofTraced (Traced.mute_ofExcept _)
      · exact tells_ofTraced (readReturns_mute _ _ _)
      · exact tells_fail _
      · exact tells_fail _
      · exact tells_ofTraced (readPlain_mute _ _ _)

theorem readConditional_accounts (keyword : Token) (words : List Token) (stop : Span)
    (accounts : Accounts (4 * tokens.length + 2)) :
    (readConditional keyword words stop tokens).Tells (Heard (.conditional keyword words stop tokens)) := by
  rw [readConditional]
  refine tells_ofTraced_andThen (Expression.expect_mute _ _ _) fun condition => ?_
  refine tells_andThen ?_ fun thenBlock read => ?_
  · exact (accounts.block stop tokens (by omega)).called (.thenBlock keyword words stop tokens)
  · have shorter := (readBlock stop tokens).within.length_le
    split
    · rename_i other sentence after led
      have smaller := Sentence.led?_shorter led
      refine tells_widen (tells_ofTraced_andThen (Traced.mute_ofExcept _) fun _ => tells_map ?_)
      exact (accounts.block sentence.stop after (by omega)).called (.elseBlock read led)
    · split
      · rename_i otif sentence after led
        have smaller := Sentence.led?_shorter led
        refine tells_widen (tells_map ?_)
        exact (accounts.conditional otif _ _ after (by omega)).called (.otif read led)
      · exact tells_done _

theorem readLoop_accounts (keyword : Token) (words : List Token) (stop : Span)
    (accounts : Accounts (4 * tokens.length + 2)) :
    (readLoop keyword words stop tokens).Tells (Heard (.loop keyword words stop tokens)) := by
  rw [readLoop]
  refine tells_ofTraced_andThen (Expression.expect_mute _ _ _) fun condition => ?_
  refine tells_andThen ?_ fun body read => ?_
  · exact (accounts.block stop tokens (by omega)).called (.body keyword words stop tokens)
  · have shorter := (readBlock stop tokens).within.length_le
    split
    · rename_i other sentence after led
      have smaller := Sentence.led?_shorter led
      refine tells_widen (tells_ofTraced_andThen (Traced.mute_ofExcept _) fun _ => tells_map ?_)
      exact (accounts.block sentence.stop after (by omega)).called (.otherwise read led)
    · exact tells_done _

theorem readDefinition_accounts (keyword : Token) (words : List Token) (stop : Span)
    (accounts : Accounts (4 * tokens.length + 2)) :
    (readDefinition keyword words stop tokens).Tells (Heard (.definition keyword words stop tokens)) := by
  rw [readDefinition]
  split
  · exact tells_fail _
  · refine tells_tell ?_ (tells_map ?_)
    · simp
    · exact (accounts.block stop tokens (by omega)).called (.procedure keyword words stop tokens)

theorem consume_tells (anchor : Span) (tokens : List Token) {told : Token → Prop} :
    (Token.consume .beginIndent anchor tokens).Tells told := by
  cases tokens with
  | nil => exact tells_fail _
  | cons token rest =>
    rw [Token.consume]
    split
    · exact tells_widen (tells_done _)
    · rw [if_pos rfl]
      exact tells_fail _

theorem readBlock_accounts (anchor : Span) (accounts : Accounts (4 * tokens.length + 1)) :
    (readBlock anchor tokens).Tells (Heard (.block anchor tokens)) := by
  rw [readBlock]
  refine tells_andThen (consume_tells anchor tokens) fun token opened => ?_
  have shorter := (Token.consume .beginIndent anchor tokens).within.length_le
  exact (accounts.rest anchor _ (by omega)).called (.inside opened)

theorem readRest_accounts (anchor : Span) (accounts : Accounts (4 * tokens.length)) :
    (readRest anchor tokens).Tells (Heard (.rest anchor tokens)) := by
  cases tokens with
  | nil =>
    rw [readRest]
    exact tells_fail _
  | cons token tokens =>
    rw [readRest]
    split
    · exact tells_widen (tells_done _)
    · rename_i within
      split
      · exact tells_fail _
      · rename_i sentence after next
        have shorter := Sentence.next?_shorter next
        refine tells_widen (tells_andThen ?_ fun node read => tells_map ?_)
        · exact (accounts.read sentence after (by omega)).called (.nested within next)
        · have smaller := (Statement.read sentence after).within.length_le
          exact (accounts.rest anchor _ (by omega)).called (.onward within next read)

end Readers

theorem accounts (bound : Nat) : Accounts bound := by
  -- As the readers end: on fewer tokens, or on as many by a reader that is further in.
  induction bound using Nat.strongRecOn with
  | _ bound ih =>
    constructor
    · exact fun sentence tokens small => read_accounts sentence (ih _ small)
    · exact fun keyword words stop tokens small => readConditional_accounts keyword words stop (ih _ small)
    · exact fun keyword words stop tokens small => readLoop_accounts keyword words stop (ih _ small)
    · exact fun keyword words stop tokens small => readDefinition_accounts keyword words stop (ih _ small)
    · exact fun anchor tokens small => readBlock_accounts anchor (ih _ small)
    · exact fun anchor tokens small => readRest_accounts anchor (ih _ small)

end Statement

namespace Program

open Reading Parsed

theorem readStatements_accounts (tokens : List Token) : (readStatements tokens).Tells (Heard (.program tokens)) := by
  induction size : tokens.length using Nat.strongRecOn generalizing tokens with
  | _ length ih =>
    rw [readStatements]
    split
    · exact tells_done _
    · rename_i sentence after next
      have shorter := Sentence.next?_shorter next
      refine tells_widen (tells_andThen ?_ fun node read => tells_map ?_)
      · exact (Statement.read_accounts sentence (Statement.accounts _)).called (.statement next)
      · have smaller := (Statement.read sentence after).within.length_le
        exact (ih _ (by omega) _ rfl).called (.further next read)

/-- Every statement that the log of a program names has been called for. -/
theorem read_accounts (tokens : List Token) : (Program.read tokens).Tells (Heard (.program tokens)) := by
  refine tells_andThen (readStatements_accounts tokens) fun program _ => tells_tell ?_ (tells_done _)
  simp

end Program
end Parlance
