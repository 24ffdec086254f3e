import Parlance.Program
import Parlance.Proofs.Node.Grammar

/-! From single lines to programs. Each statement is made of the words of one line, or of two where it has an
`otherwise`, and of the statements in its blocks; so what the words of every line yield, if the statements in the blocks
are such already, is true of every statement that is read. -/
namespace Parlance

namespace Sentence

theorem collect_words_first (last : Span) (tokens : List Token) : (collect last tokens).1 <+: tokens := by
  induction tokens generalizing last with
  | nil => exact List.nil_prefix
  | cons token rest ih =>
    rw [collect]
    split
    · exact List.nil_prefix
    · exact List.nil_prefix
    · exact List.cons_prefix_cons.mpr ⟨rfl, ih token.span⟩

theorem next?_within {tokens after : List Token} {sentence : Sentence} (read : next? tokens = some (sentence, after)) :
    sentence.words <:+: tokens := by
  unfold next? at read
  split at read
  · cases read
  · rename_i token rest
    split at read
    · cases read
    · simp only [Option.some.injEq, Prod.mk.injEq] at read
      rw [← read.1]
      exact (collect_words_first token.span (token :: rest)).isInfix

theorem led?_within {keyword : Keyword} {tokens after : List Token} {token : Token} {sentence : Sentence}
    (read : led? keyword tokens = some (token, sentence, after)) : sentence.words <:+: tokens := by
  unfold led? at read
  split at read
  · cases read
  · rename_i first rest
    split at read
    · simp only [Option.some.injEq, Prod.mk.injEq] at read
      rw [← read.2.1]
      exact (collect_words_first first.span rest).isInfix.trans (List.suffix_cons first rest).isInfix
    · cases read

end Sentence

namespace Statement

open Traced

theorem readHeading_ok {keyword : Token} {words : List Token} {name param : String}
    (read : readHeading keyword words = .ok (name, param)) :
    ∃ before found between means, words = before ++ found :: (between ++ [means]) ∧
      found.kind = .keyword .ofWord ∧ means.kind = .keyword .weMeanWord ∧ Token.Names before name ∧
      Token.Names between param := by
  unfold readHeading at read
  split at read
  · cases read
  · rename_i ofSplit ofCut
    split at read
    · cases read
    · rename_i meanSplit meanCut
      split at read
      · cases read
      · rename_i ended
        cases named : Expression.joinWords ofSplit.before ofSplit.found.span with
        | error error =>
          rw [named] at read
          cases read
        | ok first =>
          rw [named] at read
          cases given : Expression.joinWords meanSplit.before meanSplit.found.span with
          | error error =>
            rw [given] at read
            cases read
          | ok second =>
            rw [given] at read
            cases read
            refine ⟨ofSplit.before, ofSplit.found, meanSplit.before, meanSplit.found, ?_, (Split.atKind?_spec ofCut).1,
              (Split.atKind?_spec meanCut).1, (Expression.joinWords_ok_iff _).mp named,
              (Expression.joinWords_ok_iff _).mp given⟩
            rw [← Split.at?_join ofCut, ← Split.at?_join meanCut, ended]

/-- What is known of the words of a line, and what is then true of the statement that they make, with the statements in
its blocks. -/
structure Yields (fit : List Token → Prop) (good : Node → Prop) : Prop where
  infixed : ∀ {tokens part}, fit tokens → part <:+: tokens → fit part
  nothing : ∀ line, good (.literal .nothing line)
  breaks : ∀ line, good (.breaks line)
  tested : ∀ words anchor context, fit words → (Expression.expect words anchor context).Ensures fun condition =>
    ∀ {block other} line, (∀ node ∈ block, good node) → (∀ node ∈ other, good node) →
      good (.conditional condition block other line) ∧ good (.loop condition block other line)
  headed : ∀ keyword words name param, fit words → readHeading keyword words = .ok (name, param) →
    ∀ {body} line, (∀ node ∈ body, good node) → good (.definition name [param] body 0 line)
  returned : ∀ keyword words stop, fit words → (readReturns keyword words stop).Ensures good
  plain : ∀ first words stop, fit words → (readPlain first words stop).Ensures good

variable {fit : List Token → Prop} {good : Node → Prop}

/-- What all readers do on streams so short that their measures stay below the bound. -/
structure Keeps (fit : List Token → Prop) (good : Node → Prop) (bound : Nat) : Prop where
  read : ∀ sentence tokens, 4 * tokens.length + 3 < bound → fit sentence.words → fit tokens →
    (Statement.read sentence tokens).Ensures good
  conditional : ∀ keyword words stop tokens, 4 * tokens.length + 2 < bound → fit words → fit tokens →
    (readConditional keyword words stop tokens).Ensures good
  loop : ∀ keyword words stop tokens, 4 * tokens.length + 2 < bound → fit words → fit tokens →
    (readLoop keyword words stop tokens).Ensures good
  definition : ∀ keyword words stop tokens, 4 * tokens.length + 2 < bound → fit words → fit tokens →
    (readDefinition keyword words stop tokens).Ensures good
  block : ∀ anchor tokens, 4 * tokens.length + 1 < bound → fit tokens →
    (readBlock anchor tokens).Ensures (∀ node ∈ ·, good node)
  rest : ∀ anchor tokens, 4 * tokens.length < bound → fit tokens →
    (readRest anchor tokens).Ensures (∀ node ∈ ·, good node)

section Readers

variable {tokens : List Token} (yields : Yields fit good) (fits : fit tokens)

include yields fits

theorem Yields.within {rest : List Token} (within : rest <:+ tokens) : fit rest :=
  yields.infixed fits within.isInfix

theorem read_keeps {sentence : Sentence} (keeps : Keeps fit good (4 * tokens.length + 3)) (words : fit sentence.words) :
    (Statement.read sentence tokens).Ensures good := by
  rw [Statement.read]
  split
  · exact Parsed.ensures_done (yields.nothing _)
  · rename_i first rest same
    have after : fit rest := yields.infixed words (same ▸ (List.suffix_cons first rest).isInfix)
    refine Parsed.ensures_tell ?_
    split
    · exact keeps.conditional first rest _ tokens (by omega) after fits
    · exact keeps.loop first rest _ tokens (by omega) after fits
    · exact keeps.definition first rest _ tokens (by omega) after fits
    · refine Parsed.ensures_ofTraced (ensures_ofExcept ?_)
      intro node ok
      cases ended : Sentence.noMore rest with
      | error error =>
        rw [ended] at ok
        cases ok
      | ok _ =>
        rw [ended] at ok
        cases ok
        exact yields.breaks _
    · exact Parsed.ensures_ofTraced (yields.returned first rest _ after)
    · exact Parsed.ensures_fail _
    · exact Parsed.ensures_fail _
    · exact Parsed.ensures_ofTraced (yields.plain first _ _ (same ▸ words))

/-- A condition and the block after it, whatever comes next. -/
theorem readHead_keeps {words : List Token} {stop : Span} {context : String}
    {next : (rest : List Token) → Node → List Node → Parsed rest Node}
    (keeps : Keeps fit good (4 * tokens.length + 2)) (given : fit words)
    (further : ∀ rest condition block, rest <:+ tokens →
      (∀ {other} line, (∀ node ∈ other, good node) →
        good (.conditional condition block other line) ∧ good (.loop condition block other line)) →
      (next rest condition block).Ensures good) :
    ((Parsed.ofTraced (Expression.expect words stop context)).andThen fun tokens _ condition =>
      (readBlock stop tokens).andThen fun tokens _ block => next tokens condition block :
        Parsed tokens Node).Ensures good := by
  refine Parsed.ensures_andThen (Parsed.ensures_ofTraced (yields.tested _ _ _ given)) ?_
  intro tokens₁ within₁ condition here
  have shorter := within₁.length_le
  refine Parsed.ensures_andThen (keeps.block stop tokens₁ (by omega) (yields.within fits within₁)) ?_
  intro tokens₂ within₂ block taken
  exact further tokens₂ condition block (within₂.trans within₁) fun line => here line taken

theorem readOtherwise_keeps {rest after : List Token} {token : Token} {sentence : Sentence} {make : List Node → Node}
    (keeps : Keeps fit good (4 * tokens.length + 2)) (within : rest <:+ tokens)
    (led : Sentence.led? .otherwiseWord rest = some (token, sentence, after))
    (made : ∀ nodes, (∀ node ∈ nodes, good node) → good (make nodes)) :
    ((Parsed.ofTraced (.ofExcept (Sentence.noMore sentence.words))).andThen fun tokens _ _ =>
      (readBlock sentence.stop tokens).map make : Parsed after Node).Ensures good := by
  have shorter := Sentence.led?_shorter led
  have short := within.length_le
  refine Parsed.ensures_andThen (Parsed.ensures_true _) ?_
  intro left inside _ _
  have shortest := inside.length_le
  have fitsLeft := yields.within fits ((inside.trans (Sentence.led?_suffix led)).trans within)
  exact Parsed.ensures_map fun nodes ok => made nodes (keeps.block _ left (by omega) fitsLeft nodes ok)

theorem readConditional_keeps (keyword : Token) {words : List Token} (stop : Span)
    (keeps : Keeps fit good (4 * tokens.length + 2)) (given : fit words) :
    (readConditional keyword words stop tokens).Ensures good := by
  rw [readConditional]
  refine readHead_keeps yields fits keeps given ?_
  intro rest condition thenBlock within here
  split
  · rename_i led
    refine Parsed.ensures_widen (readOtherwise_keeps yields fits keeps within led ?_)
    exact fun elseBlock other => (here _ other).1
  · split
    · rename_i otif sentence after led
      have shorter := Sentence.led?_shorter led
      have short := within.length_le
      have fitsRest := yields.within fits within
      have words := yields.infixed fitsRest (Sentence.led?_within led)
      have fitsAfter := yields.within fitsRest (Sentence.led?_suffix led)
      have inside := keeps.conditional otif _ sentence.stop after (by omega) words fitsAfter
      refine Parsed.ensures_widen (Parsed.ensures_map fun inner ok => (here _ ?_).1)
      exact List.forall_mem_singleton.mpr (inside inner ok)
    · exact Parsed.ensures_done (here _ (List.forall_mem_nil _)).1

theorem readLoop_keeps (keyword : Token) {words : List Token} (stop : Span)
    (keeps : Keeps fit good (4 * tokens.length + 2)) (given : fit words) :
    (readLoop keyword words stop tokens).Ensures good := by
  rw [readLoop]
  refine readHead_keeps yields fits keeps given ?_
  intro rest condition body within here
  split
  · rename_i led
    refine Parsed.ensures_widen (readOtherwise_keeps yields fits keeps within led ?_)
    exact fun otherwise other => (here _ other).2
  · exact Parsed.ensures_done (here _ (List.forall_mem_nil _)).2

theorem readDefinition_keeps (keyword : Token) {words : List Token} (stop : Span)
    (keeps : Keeps fit good (4 * tokens.length + 2)) (given : fit words) :
    (readDefinition keyword words stop tokens).Ensures good := by
  rw [readDefinition]
  split
  · exact Parsed.ensures_fail _
  · rename_i name param heading
    refine Parsed.ensures_tell (Parsed.ensures_map fun body ok => ?_)
    exact yields.headed keyword words name param given heading _ (keeps.block stop tokens (by omega) fits body ok)

theorem readBlock_keeps (anchor : Span) (keeps : Keeps fit good (4 * tokens.length + 1)) :
    (readBlock anchor tokens).Ensures (∀ node ∈ ·, good node) := by
  rw [readBlock]
  refine Parsed.ensures_andThen (Parsed.ensures_true _) ?_
  intro rest within _ _
  have shorter := within.length_le
  exact keeps.rest anchor rest (by omega) (yields.within fits within)

theorem readRest_keeps (anchor : Span) (keeps : Keeps fit good (4 * tokens.length)) :
    (readRest anchor tokens).Ensures (∀ node ∈ ·, good node) := by
  cases tokens with
  | nil =>
    rw [readRest]
    exact Parsed.ensures_fail _
  | cons token tokens =>
    rw [readRest]
    split
    · exact Parsed.ensures_widen (Parsed.ensures_done (List.forall_mem_nil _))
    · split
      · exact Parsed.ensures_fail _
      · rename_i sentence after next
        have shorter := Sentence.next?_shorter next
        have words := yields.infixed fits (Sentence.next?_within next)
        have fitsAfter := yields.within fits (Sentence.next?_suffix next)
        refine Parsed.ensures_widen (Parsed.ensures_andThen (keeps.read sentence after (by omega) words fitsAfter) ?_)
        intro remaining within node here
        have shorterStill := within.length_le
        refine Parsed.ensures_map fun nodes ok => List.forall_mem_cons.mpr ⟨here, ?_⟩
        exact keeps.rest anchor remaining (by omega) (yields.within fitsAfter within) nodes ok

end Readers

theorem Yields.keeps (yields : Yields fit good) (bound : Nat) : Keeps fit good bound := by
  -- The bound is on the measure by which the readers end, so each may rely on those that it calls.
  induction bound using Nat.strongRecOn with
  | _ bound ih =>
    constructor
    · exact fun sentence tokens small words fits => read_keeps yields fits (ih _ small) words
    · exact fun keyword words stop tokens small given fits =>
        readConditional_keeps yields fits keyword stop (ih _ small) given
    · exact fun keyword words stop tokens small given fits => readLoop_keeps yields fits keyword stop (ih _ small) given
    · exact fun keyword words stop tokens small given fits =>
        readDefinition_keeps yields fits keyword stop (ih _ small) given
    · exact fun anchor tokens small fits => readBlock_keeps yields fits anchor (ih _ small)
    · exact fun anchor tokens small fits => readRest_keeps yields fits anchor (ih _ small)

theorem Yields.read (yields : Yields fit good) {sentence : Sentence} {tokens : List Token} (words : fit sentence.words)
    (fits : fit tokens) : (Statement.read sentence tokens).Ensures good :=
  read_keeps yields fits (yields.keeps _) words

end Statement

namespace Program

open Statement

variable {fit : List Token → Prop} {good : Node → Prop} {tokens : List Token}

theorem readStatements_keeps (yields : Yields fit good) (fits : fit tokens) :
    (readStatements tokens).Ensures (∀ node ∈ ·, good node) := by
  induction size : tokens.length using Nat.strongRecOn generalizing tokens with
  | _ length ih =>
    rw [readStatements]
    split
    · exact Parsed.ensures_done (List.forall_mem_nil _)
    · rename_i sentence after next
      have shorter := Sentence.next?_shorter next
      have words := yields.infixed fits (Sentence.next?_within next)
      have fitsAfter := yields.within fits (Sentence.next?_suffix next)
      refine Parsed.ensures_widen (Parsed.ensures_andThen (yields.read words fitsAfter) ?_)
      intro remaining within node here
      have shorterStill := within.length_le
      refine Parsed.ensures_map fun nodes ok => List.forall_mem_cons.mpr ⟨here, ?_⟩
      exact ih remaining.length (by omega) (yields.within fitsAfter within) rfl nodes ok

theorem read_yields (yields : Yields fit good) (fits : fit tokens) : (read tokens).Ensures (∀ node ∈ ·, good node) :=
  Parsed.ensures_andThen (readStatements_keeps yields fits) fun _ _ _ given =>
    Parsed.ensures_tell (Parsed.ensures_done given)

theorem read_result (tokens : List Token) : (read tokens).result = (readStatements tokens).result := by
  unfold read Parsed.andThen
  cases (readStatements tokens).result <;> rfl

end Program

theorem Source.program_result {source : Source} {tokens : List Token} (lexed : source.tokens.result = .ok tokens) :
    source.program.result = (Program.readStatements tokens).result.mapError .ungrammatical := by
  rw [program, lexed, ← Program.read_result]

theorem Source.program_parsed {source : Source} {program : List Node} (read : source.program.result = .ok program) :
    ∃ tokens, source.tokens.result = .ok tokens ∧ (Program.read tokens).result = .ok program := by
  unfold Source.program at read
  dsimp only at read
  split at read
  · cases read
  · rename_i tokens lexed
    refine ⟨tokens, lexed, ?_⟩
    cases parsed : (Program.read tokens).result with
    | error error =>
      rw [parsed] at read
      cases read
    | ok nodes =>
      rw [parsed] at read
      cases read
      rfl

end Parlance
