import Parlance.Node.Statement
import Parlance.Proofs.Node.Meets
import Parlance.Proofs.Node.Reader

/-! What readers may do with the tokens they are given: they take none from the end of the input on, and each token they
take pays for at most two of the events they report. Whatever the tokens are, reading them so comes to an end. -/
namespace Parlance

/-- What is left when tokens are taken, and no end of the input among them. -/
def Passes (tokens rest : List Token) : Prop :=
  ∃ taken, tokens = taken ++ rest ∧ ∀ token ∈ taken, token.kind ≠ .eof

/-- The tokens from the first end of the input on. -/
def Token.sinceEnd (tokens : List Token) : List Token :=
  tokens.dropWhile (·.kind ≠ .eof)

namespace Passes

variable {tokens middle rest : List Token} {token : Token}

theorem refl (tokens : List Token) : Passes tokens tokens :=
  ⟨[], rfl, List.forall_mem_nil _⟩

theorem trans (before : Passes tokens middle) (after : Passes middle rest) : Passes tokens rest := by
  obtain ⟨taken, rfl, noEnd⟩ := before
  obtain ⟨further, rfl, noEndFurther⟩ := after
  refine ⟨taken ++ further, (List.append_assoc ..).symm, ?_⟩
  exact List.forall_mem_append.mpr ⟨noEnd, noEndFurther⟩

theorem cons (noEnd : token.kind ≠ .eof) (after : Passes tokens rest) : Passes (token :: tokens) rest := by
  obtain ⟨taken, rfl, noEndFurther⟩ := after
  exact ⟨token :: taken, rfl, List.forall_mem_cons.mpr ⟨noEnd, noEndFurther⟩⟩

theorem sinceEnd_eq (passes : Passes tokens rest) : Token.sinceEnd tokens = Token.sinceEnd rest := by
  obtain ⟨taken, rfl, noEnd⟩ := passes
  unfold Token.sinceEnd
  rw [List.dropWhile_append_of_pos]
  exact fun token member => decide_eq_true (noEnd token member)

end Passes

namespace Sentence

variable {tokens after : List Token} {sentence : Sentence}

theorem collect_passes (last : Span) (tokens : List Token) : Passes tokens (collect last tokens).2.2 := by
  induction tokens generalizing last with
  | nil => exact .refl _
  | cons token rest ih =>
    rw [collect]
    split
    · rename_i newline
      exact .cons (newline ▸ Kind.noConfusion) (.refl rest)
    · exact .refl _
    · rename_i noEnd
      exact .cons noEnd (ih token.span)

theorem collect_length (last : Span) (tokens : List Token) :
    (collect last tokens).1.length + (collect last tokens).2.2.length ≤ tokens.length := by
  induction tokens generalizing last with
  | nil => exact Nat.le_refl _
  | cons token rest ih =>
    have shorter := ih token.span
    rw [collect]
    split
    · simp
    · simp
    · rw [List.length_cons, List.length_cons, Nat.add_right_comm]
      exact Nat.succ_le_succ shorter

/-- A stream that goes on goes on with a sentence. -/
theorem next?_cons {token : Token} (noEnd : token.kind ≠ .eof) (rest : List Token) :
    next? (token :: rest) =
      some (⟨(collect token.span (token :: rest)).1, (collect token.span (token :: rest)).2.1⟩,
        (collect token.span (token :: rest)).2.2) :=
  if_neg noEnd

theorem next?_collect (next : next? tokens = some (sentence, after)) : ∃ last, collect last tokens =
    (sentence.words, sentence.stop, after) := by
  cases tokens with
  | nil => cases next
  | cons token rest =>
    by_cases ended : token.kind = .eof
    · rw [next?, if_pos ended] at next
      cases next
    · rw [next?_cons ended] at next
      cases next
      exact ⟨token.span, rfl⟩

theorem next?_passes (next : next? tokens = some (sentence, after)) : Passes tokens after := by
  obtain ⟨last, collected⟩ := next?_collect next
  have passes := collect_passes last tokens
  rwa [collected] at passes

theorem next?_length (next : next? tokens = some (sentence, after)) :
    sentence.words.length + after.length ≤ tokens.length := by
  obtain ⟨last, collected⟩ := next?_collect next
  have length := collect_length last tokens
  rwa [collected] at length

theorem sinceEnd_of_next?_none (finished : next? tokens = none) : Token.sinceEnd tokens = tokens := by
  cases tokens with
  | nil => rfl
  | cons token rest =>
    by_cases ended : token.kind = .eof
    · simp [Token.sinceEnd, ended]
    · rw [next?_cons ended] at finished
      cases finished

/-- A sentence that a keyword leads is the next one, keyword included. -/
theorem led?_next? {keyword : Keyword} {token : Token} (led : led? keyword tokens = some (token, sentence, after)) :
    next? tokens = some (⟨token :: sentence.words, sentence.stop⟩, after) := by
  cases tokens with
  | nil => cases led
  | cons first rest =>
    rw [led?] at led
    split at led
    · rename_i isKeyword
      have kind : first.kind = .keyword keyword := by simpa [Token.isKeyword] using isKeyword
      cases led
      simp [next?, collect, kind]
    · cases led

end Sentence

namespace Traced

variable {ε α β : Type} {budget cost further : Nat}

/-- So many events are reported at most. -/
def Costs (traced : Traced ε α) (budget : Nat) : Prop :=
  traced.events.length ≤ budget

theorem Costs.mono {traced : Traced ε α} (costs : traced.Costs cost) (le : cost ≤ budget) : traced.Costs budget :=
  Nat.le_trans costs le

theorem costs_pure (a : α) : (pure a : Traced ε α).Costs budget :=
  Nat.zero_le _

theorem costs_fail (error : ε) : (fail error : Traced ε α).Costs budget :=
  Nat.zero_le _

theorem costs_ofExcept (result : Except ε α) : (ofExcept result).Costs budget :=
  Nat.zero_le _

theorem costs_bind {first : Traced ε α} {next : α → Traced ε β} (before : first.Costs cost)
    (after : ∀ a, (next a).Costs further) : (first >>= next).Costs (cost + further) := by
  change (Traced.bind first next).events.length ≤ _
  unfold Traced.bind
  split
  · exact Nat.le_add_right_of_le before
  · rename_i a _
    rw [List.length_append]
    exact Nat.add_le_add before (after a)

theorem costs_ofExcept_bind {result : Except ε α} {next : α → Traced ε β} (after : ∀ a, (next a).Costs budget) :
    (ofExcept result >>= next).Costs budget :=
  (costs_bind (costs_ofExcept result) after).mono (Nat.le_of_eq (Nat.zero_add budget))

theorem costs_bind_pure {first : Traced ε α} (f : α → β) (before : first.Costs budget) :
    (first >>= fun a => pure (f a)).Costs budget := by
  have free : ∀ a, (pure (f a) : Traced ε β).Costs 0 := fun a => costs_pure (f a)
  exact costs_bind before free

end Traced

namespace Expression

open Traced

variable {words : List Token} {anchor : Span} {budget : Nat}

/-- The first word pays for the expression, the others for those inside it. -/
theorem reported_costs (first : Token) {rest : List Token} {next : Traced GrammarError Node}
    (inner : next.Costs rest.length) : (report first rest >>= fun _ => next).Costs (first :: rest).length := by
  have told : (report first rest).Costs 1 := Nat.le_refl 1
  rw [List.length_cons, Nat.add_comm]
  exact costs_bind told fun _ => inner

theorem readCallee_costs (inner : (read words anchor).Costs budget) : (readCallee words anchor).Costs budget := by
  unfold readCallee
  split
  · exact costs_ofExcept _
  · exact inner

theorem readGiven_costs (inner : (read words anchor).Costs budget) : (readGiven words anchor).Costs budget := by
  unfold readGiven
  split
  · exact costs_pure _
  · exact costs_bind_pure _ inner

theorem costs_expect (context : String) (inner : (read words anchor).Costs budget) :
    (expect words anchor context).Costs budget := by
  unfold expect
  split
  · exact costs_fail _
  · exact inner

/-- Each expression that is read has a word of its own. -/
theorem read_costs (words : List Token) (anchor : Span) : (read words anchor).Costs words.length := by
  induction words, anchor using read_induction with
  | nothing anchor => exact costs_fail _
  | called first rest anchor split cut before after =>
    have lengths : split.before.length + split.after.length = rest.length :=
      Nat.succ.inj (Split.atKind?_length cut)
    refine reported_costs first ?_
    rw [← lengths]
    exact costs_bind (readCallee_costs before) fun callee => costs_bind_pure _ (readGiven_costs after)
  | operation first rest anchor operator split noOf cut before after =>
    have lengths : split.before.length + split.after.length = rest.length :=
      Nat.succ.inj (Split.atOperator?_length cut)
    refine reported_costs first ?_
    rw [← lengths]
    exact costs_bind (costs_expect _ before) fun left => costs_bind_pure _ (costs_expect _ after)
  | name first rest anchor noOf free led => exact reported_costs first (costs_ofExcept _)
  | atom token anchor noOf free unled => exact reported_costs token (costs_ofExcept _)
  | beside first rest anchor noOf free unled filled given =>
    exact reported_costs first (costs_ofExcept_bind fun callee => costs_bind_pure _ given)

theorem expect_costs (words : List Token) (anchor : Span) (context : String) :
    (expect words anchor context).Costs words.length :=
  costs_expect context (read_costs words anchor)

end Expression

namespace Parsed

variable {tokens after : List Token} {α β : Type} {budget cost further : Nat}

/-- No end of the input is taken, and the events are paid for: two by each token that is taken, and the budget beyond
that. -/
structure Spends (parsed : Parsed tokens α) (budget : Nat) : Prop where
  passes : Passes tokens parsed.rest
  paid : parsed.events.length + 2 * parsed.rest.length ≤ 2 * tokens.length + budget

theorem Spends.mono {parsed : Parsed tokens α} (spends : parsed.Spends cost) (le : cost ≤ budget) :
    parsed.Spends budget :=
  ⟨spends.passes, Nat.le_trans spends.paid (Nat.add_le_add_left le _)⟩

theorem spends_done (a : α) : (done a : Parsed tokens α).Spends budget :=
  ⟨.refl _, by simp [done]⟩

theorem spends_fail (error : GrammarError) : (fail error : Parsed tokens α).Spends budget :=
  ⟨.refl _, by simp [fail]⟩

theorem spends_ofTraced {traced : Traced GrammarError α} (costs : traced.Costs budget) :
    (ofTraced traced : Parsed tokens α).Spends budget :=
  ⟨.refl _, Nat.le_trans (Nat.add_le_add_right costs _) (Nat.le_of_eq (Nat.add_comm ..))⟩

theorem spends_map {f : α → β} {parsed : Parsed tokens α} (spends : parsed.Spends budget) :
    (parsed.map f).Spends budget :=
  ⟨spends.passes, spends.paid⟩

theorem spends_tell {events : List Event} {parsed : Parsed tokens α} (spends : parsed.Spends cost) :
    (parsed.tell events).Spends (events.length + cost) := by
  refine ⟨spends.passes, ?_⟩
  have paid := spends.paid
  simp only [tell, List.length_append]
  omega

/-- What stands before the later point of the stream pays for what is beyond the budget. -/
theorem spends_widen {later : after <:+ tokens} {parsed : Parsed after α} (passes : Passes tokens after)
    (spends : parsed.Spends cost) (afford : cost + 2 * after.length ≤ 2 * tokens.length + budget) :
    (parsed.widen later).Spends budget := by
  refine ⟨passes.trans spends.passes, ?_⟩
  have paid := spends.paid
  simp only [widen]
  omega

/-- Takes one token. -/
theorem spends_take {token : Token} (noEnd : token.kind ≠ .eof) (rest : List Token) (a : α) :
    ((done a).widen (List.suffix_cons token rest)).Spends 0 := by
  have quiet : (done a : Parsed rest α).Spends 0 := spends_done a
  refine spends_widen (.cons noEnd (.refl rest)) quiet ?_
  rw [List.length_cons]
  omega

theorem spends_andThen {first : Parsed tokens α} {next : (rest : List Token) → rest <:+ tokens → α → Parsed rest β}
    (before : first.Spends cost)
    (after : ∀ a, first.result = .ok a → (next first.rest first.within a).Spends further) :
    (first.andThen next).Spends (cost + further) := by
  unfold andThen
  split
  · exact (⟨before.passes, before.paid⟩ : Spends (⟨first.events, _, first.within, _⟩ : Parsed tokens β) cost).mono
      (Nat.le_add_right _ _)
  · rename_i a read
    obtain ⟨passes, paid⟩ := after a read
    refine ⟨before.passes.trans passes, ?_⟩
    have paidBefore := before.paid
    simp only [tell, widen, List.length_append]
    omega

/-- What comes next pays for itself. -/
theorem spends_andThen_free {first : Parsed tokens α}
    {next : (rest : List Token) → rest <:+ tokens → α → Parsed rest β} (before : first.Spends budget)
    (after : ∀ a, first.result = .ok a → (next first.rest first.within a).Spends 0) :
    (first.andThen next).Spends budget :=
  spends_andThen before after

end Parsed

theorem Token.consume_spends (kind : Kind) (anchor : Span) (tokens : List Token) (inner : kind ≠ .eof) :
    (Token.consume kind anchor tokens).Spends 0 := by
  cases tokens with
  | nil => exact Parsed.spends_fail _
  | cons token rest =>
    rw [Token.consume]
    split
    · rename_i same
      exact Parsed.spends_take (same ▸ inner) rest token
    · split
      · exact Parsed.spends_fail _
      · split
        · exact Parsed.spends_fail _
        · exact Parsed.spends_fail _

namespace Statement

open Traced Parsed

theorem readPlain_costs (first : Token) (words : List Token) (stop : Span) :
    (readPlain first words stop).Costs words.length := by
  unfold readPlain
  split
  · rename_i split cut
    have lengths := Split.atKind?_length cut
    refine costs_ofExcept_bind fun target => costs_bind_pure _ ?_
    exact (Expression.expect_costs _ _ _).mono (by omega)
  · exact Expression.read_costs words stop

theorem readReturns_costs (keyword : Token) (words : List Token) (stop : Span) :
    (readReturns keyword words stop).Costs words.length := by
  unfold readReturns
  dsimp only
  split
  · exact costs_bind_pure _ (costs_pure _)
  · exact costs_bind_pure _ (Expression.read_costs words stop)

/-- What all readers do on so few tokens that their measures stay below the bound. The words of a sentence pay for
themselves as the tokens do that are still to come. -/
structure Frugal (bound : Nat) : Prop where
  read : ∀ sentence tokens, 4 * tokens.length + 3 < bound →
    (Statement.read sentence tokens).Spends (2 * sentence.words.length)
  conditional : ∀ keyword words stop tokens, 4 * tokens.length + 2 < bound →
    (readConditional keyword words stop tokens).Spends words.length
  loop : ∀ keyword words stop tokens, 4 * tokens.length + 2 < bound →
    (readLoop keyword words stop tokens).Spends words.length
  definition : ∀ keyword words stop tokens, 4 * tokens.length + 2 < bound →
    (readDefinition keyword words stop tokens).Spends 1
  block : ∀ anchor tokens, 4 * tokens.length + 1 < bound → (readBlock anchor tokens).Spends 0
  rest : ∀ anchor tokens, 4 * tokens.length < bound → (readRest anchor tokens).Spends 0

section Readers

variable {tokens : List Token}

theorem read_spends (sentence : Sentence) (frugal : Frugal (4 * tokens.length + 3)) :
    (Statement.read sentence tokens).Spends (2 * sentence.words.length) := by
  rw [Statement.read]
  split
  · exact spends_done _
  · rename_i first words spelled
    rw [spelled]
    -- One of the two events that the first word pays for is the statement's own.
    suffices spends : ∀ parsed : Parsed tokens Node, parsed.Spends (words.length + 1) →
        (parsed.tell [.statement first]).Spends (2 * (words.length + 1)) by
      apply spends
      split
      · exact (frugal.conditional _ _ _ _ (by omega)).mono (Nat.le_succ _)
      · exact (frugal.loop _ _ _ _ (by omega)).mono (Nat.le_succ _)
      · exact (frugal.definition _ _ _ _ (by omega)).mono (Nat.le_add_left _ _)
      · exact spends_ofTraced (costs_ofExcept _)
      · exact spends_ofTraced ((readReturns_costs _ _ _).mono (Nat.le_succ _))
      · exact spends_fail _
      · exact spends_fail _
      · exact spends_ofTraced (readPlain_costs first (first :: words) _)
    intro parsed spends
    exact (spends_tell spends).mono (by simp only [List.length_singleton]; omega)

theorem readOtherwise_spends {α : Type} {keyword : Keyword} {word : Token} {sentence : Sentence} {after : List Token}
    {make : List Node → α} (led : Sentence.led? keyword tokens = some (word, sentence, after))
    (block : (readBlock sentence.stop after).Spends 0) :
    (Parsed.widen (Sentence.led?_suffix led) <|
      (Parsed.ofTraced (.ofExcept (Sentence.noMore sentence.words))).andThen fun rest _ _ =>
        (readBlock sentence.stop rest).map make).Spends 0 := by
  have next := Sentence.led?_next? led
  have shorter := Sentence.next?_length next
  have alone : (Parsed.ofTraced (.ofExcept (Sentence.noMore sentence.words)) : Parsed after Unit).Spends 0 :=
    spends_ofTraced (costs_ofExcept _)
  refine spends_widen (Sentence.next?_passes next) (spends_andThen_free alone fun _ _ => spends_map block) ?_
  omega

theorem readConditional_spends (keyword : Token) (words : List Token) (stop : Span)
    (frugal : Frugal (4 * tokens.length + 2)) : (readConditional keyword words stop tokens).Spends words.length := by
  rw [readConditional]
  refine spends_andThen_free (spends_ofTraced (Expression.expect_costs _ _ _)) fun condition _ => ?_
  refine spends_andThen_free (frugal.block stop tokens (by omega)) fun thenBlock _ => ?_
  have shorter := (readBlock stop tokens).within.length_le
  split
  · rename_i other sentence after led
    have smaller := Sentence.led?_shorter led
    exact readOtherwise_spends led (frugal.block sentence.stop after (by simp only [ofTraced] at smaller; omega))
  · split
    · rename_i otif sentence after led
      have smaller := Sentence.led?_shorter led
      have next := Sentence.led?_next? led
      have paid := Sentence.next?_length next
      refine spends_widen (Sentence.next?_passes next) (spends_map (frugal.conditional otif _ _ after ?_)) ?_
      · simp only [ofTraced] at smaller
        omega
      · simp only [List.length_cons] at paid
        omega
    · exact spends_done _

theorem readLoop_spends (keyword : Token) (words : List Token) (stop : Span)
    (frugal : Frugal (4 * tokens.length + 2)) : (readLoop keyword words stop tokens).Spends words.length := by
  rw [readLoop]
  refine spends_andThen_free (spends_ofTraced (Expression.expect_costs _ _ _)) fun condition _ => ?_
  refine spends_andThen_free (frugal.block stop tokens (by omega)) fun body _ => ?_
  have shorter := (readBlock stop tokens).within.length_le
  split
  · rename_i other sentence after led
    have smaller := Sentence.led?_shorter led
    exact readOtherwise_spends led (frugal.block sentence.stop after (by simp only [ofTraced] at smaller; omega))
  · exact spends_done _

theorem readDefinition_spends (keyword : Token) (words : List Token) (stop : Span)
    (frugal : Frugal (4 * tokens.length + 2)) : (readDefinition keyword words stop tokens).Spends 1 := by
  rw [readDefinition]
  split
  · exact spends_fail _
  · exact spends_tell (spends_map (frugal.block stop tokens (by omega)))

theorem readBlock_spends (anchor : Span) (frugal : Frugal (4 * tokens.length + 1)) :
    (readBlock anchor tokens).Spends 0 := by
  rw [readBlock]
  have opening := Token.consume_spends .beginIndent anchor tokens Kind.noConfusion
  refine spends_andThen_free opening fun token _ => ?_
  have shorter := (Token.consume .beginIndent anchor tokens).within.length_le
  exact frugal.rest anchor _ (by omega)

theorem readRest_spends (anchor : Span) (frugal : Frugal (4 * tokens.length)) : (readRest anchor tokens).Spends 0 := by
  cases tokens with
  | nil =>
    rw [readRest]
    exact spends_fail _
  | cons token tokens =>
    rw [readRest]
    split
    · rename_i closing
      exact spends_take (closing ▸ Kind.noConfusion) tokens []
    · split
      · exact spends_fail _
      · rename_i sentence after next
        have shorter := Sentence.next?_shorter next
        have paid := Sentence.next?_length next
        have smaller := (Statement.read sentence after).within.length_le
        have first := frugal.read sentence after (by omega)
        have others := frugal.rest anchor (Statement.read sentence after).rest (by omega)
        refine spends_widen (Sentence.next?_passes next) (spends_andThen_free first fun node _ => spends_map others) ?_
        omega

end Readers

theorem frugal (bound : Nat) : Frugal bound := by
  -- As the readers end: on fewer tokens, or on as many by a reader that is further in.
  induction bound using Nat.strongRecOn with
  | _ bound ih =>
    constructor
    · exact fun sentence tokens small => read_spends sentence (ih _ small)
    · exact fun keyword words stop tokens small => readConditional_spends keyword words stop (ih _ small)
    · exact fun keyword words stop tokens small => readLoop_spends keyword words stop (ih _ small)
    · exact fun keyword words stop tokens small => readDefinition_spends keyword words stop (ih _ small)
    · exact fun anchor tokens small => readBlock_spends anchor (ih _ small)
    · exact fun anchor tokens small => readRest_spends anchor (ih _ small)

end Statement

namespace Program

open Parsed

theorem readStatements_spends (tokens : List Token) : (readStatements tokens).Spends 0 := by
  induction size : tokens.length using Nat.strongRecOn generalizing tokens with
  | _ length ih =>
    rw [readStatements]
    split
    · exact spends_done _
    · rename_i sentence after next
      have shorter := Sentence.next?_shorter next
      have paid := Sentence.next?_length next
      have smaller := (Statement.read sentence after).within.length_le
      have first := Statement.read_spends sentence (Statement.frugal (4 * after.length + 3))
      have others := ih _ (by omega) (Statement.read sentence after).rest rfl
      refine spends_widen (Sentence.next?_passes next) (spends_andThen_free first fun node _ => spends_map others) ?_
      omega

theorem read_spends (tokens : List Token) : (Program.read tokens).Spends 1 := by
  have quiet : ∀ rest (program : List Node), (done program : Parsed rest (List Node)).Spends 0 :=
    fun rest program => spends_done program
  exact (spends_andThen (readStatements_spends tokens) fun _ _ => spends_tell (quiet _ _)).mono (Nat.le_refl 1)

/-- Only where no sentence follows does a program end well. -/
theorem readStatements_finishes (tokens : List Token) :
    (readStatements tokens).Meets (fun _ rest => Sentence.next? rest = none) fun _ => True := by
  induction size : tokens.length using Nat.strongRecOn generalizing tokens with
  | _ length ih =>
    rw [readStatements]
    split
    · rename_i finished
      exact meets_done finished
    · rename_i sentence after next
      have shorter := Sentence.next?_shorter next
      -- Which tokens the statement leaves does not matter, only that they are fewer.
      have first : (Statement.read sentence after).Meets (fun _ _ => True) fun _ => True :=
        ⟨fun _ _ => trivial, fun _ _ => trivial⟩
      refine meets_widen (meets_andThen first fun node rest within _ => meets_map (ih _ ?_ rest rfl))
      have smaller := within.length_le
      omega

theorem read_finishes (tokens : List Token) :
    (Program.read tokens).Meets (fun _ rest => Sentence.next? rest = none) fun _ => True :=
  meets_andThen (readStatements_finishes tokens) fun _ _ _ finished => meets_tell (meets_done finished)

end Program
end Parlance
