import Parlance.Node.Statement
import Parlance.Proofs.Node.Relined
import Parlance.Proofs.Node.Spell
import Parlance.Proofs.Token.Relocation

/-! What is read does not depend on where the words stand: words that stand elsewhere are read as the same tree with
other line numbers, or refused for the same reason at the other place. -/
namespace Parlance

theorem Token.relocate_keeps (move : Relocation) : Keeps (relocate move) :=
  ⟨fun _ => rfl, fun _ _ => rfl, fun _ => rfl⟩

def Sentence.relocate (move : Relocation) (sentence : Sentence) : Sentence :=
  ⟨sentence.words.map (Token.relocate move), sentence.stop.relocate move⟩

def GrammarError.relocate (move : Relocation) : GrammarError → GrammarError
  | .unexpectedToken span token => .unexpectedToken (span.relocate move) token
  | .unexpectedEndOfInput span => .unexpectedEndOfInput (span.relocate move)
  | .expectedBlock span found => .expectedBlock (span.relocate move) found
  | .unterminatedBlock span => .unterminatedBlock (span.relocate move)
  | .unexpectedIndentation span => .unexpectedIndentation (span.relocate move)
  | .invalidDefinition span details => .invalidDefinition (span.relocate move) details
  | .invalidTarget span found => .invalidTarget (span.relocate move) found
  | .expectedWord span found => .expectedWord (span.relocate move) found
  | .invalidNumber span lexeme => .invalidNumber (span.relocate move) lexeme
  | .trailingTokens span token => .trailingTokens (span.relocate move) token
  | .missingExpression span context => .missingExpression (span.relocate move) context

/-- The result elsewhere: what is read has the image, what is refused is refused there. -/
def Relocation.echo {α β : Type} (move : Relocation) (image : α → β) (result : Except GrammarError α) :
    Except GrammarError β :=
  recast (GrammarError.relocate move) image result

theorem Relocation.echo_bind {α β γ δ : Type} (move : Relocation) {image : α → β} {shape : γ → δ}
    {first : Traced GrammarError α} {second : Traced GrammarError β} {next : α → Traced GrammarError γ}
    {other : β → Traced GrammarError δ} (before : second.result = move.echo image first.result)
    (after : ∀ a, (other (image a)).result = move.echo shape (next a).result) :
    (second >>= other).result = move.echo shape (first >>= next).result := by
  rw [Traced.result_bind, Traced.result_bind]
  exact bind_recast before after

theorem Split.atKind?_relocate (move : Relocation) (kind : Kind) (words : List Token) :
    atKind? kind (words.map (Token.relocate move)) = (atKind? kind words).map (map (Token.relocate move)) :=
  at?_map (f := Token.relocate move) (fun _ => rfl) words

namespace Expression

open Traced

variable (move : Relocation)

theorem joinWords_relocate (words : List Token) (anchor : Span) :
    joinWords (words.map (Token.relocate move)) (anchor.relocate move) = move.echo id (joinWords words anchor) := by
  have bad : (words.map (Token.relocate move)).find? (·.kind != .word) =
      (words.find? (·.kind != .word)).map (Token.relocate move) := List.find?_map
  have plain : (words.map (Token.relocate move)).map Token.lexeme = words.map Token.lexeme := List.map_map
  unfold joinWords
  rw [bad, plain, List.isEmpty_map]
  split
  · rfl
  · cases words.find? (·.kind != .word) <;> rfl

theorem readName_relocate (words : List Token) (anchor : Span) :
    readName (words.map (Token.relocate move)) (anchor.relocate move) =
      move.echo (Node.relined move.line) (readName words anchor) := by
  cases words with
  | nil => rfl
  | cons first rest =>
    rw [List.map_cons, readName, readName]
    by_cases led : first.isKeyword .theWord = true
    · rw [if_pos led, if_pos (show (first.relocate move).isKeyword .theWord = true from led), joinWords_relocate]
      exact bind_recast rfl fun _ => rfl
    · rw [if_neg led, if_neg (show ¬ (first.relocate move).isKeyword .theWord = true from led)]
      rfl

theorem readAtom_relocate (token : Token) :
    readAtom (token.relocate move) = move.echo (Node.relined move.line) (readAtom token) := by
  unfold readAtom
  dsimp only [Token.relocate]
  split
  · cases Number.read? token.lexeme.toList <;> rfl
  all_goals rfl

theorem readHeadWord_relocate (token : Token) :
    readHeadWord (token.relocate move) = move.echo (Node.relined move.line) (readHeadWord token) := by
  by_cases word : token.kind = .word
  · rw [readHeadWord, readHeadWord, if_pos word, if_pos (show (token.relocate move).kind = .word from word)]
    rfl
  · rw [readHeadWord, readHeadWord, if_neg word, if_neg (show ¬ (token.relocate move).kind = .word from word)]
    exact readAtom_relocate move token

theorem readShortHead?_relocate (words : List Token) (anchor : Span) :
    readShortHead? (words.map (Token.relocate move)) (anchor.relocate move) =
      (readShortHead? words anchor).map (move.echo (Node.relined move.line)) := by
  rcases words with _ | ⟨token, _ | ⟨second, rest⟩⟩
  · rfl
  · exact congrArg some (readHeadWord_relocate move token)
  · rfl

theorem reported_relocate (first : Token) (rest : List Token) {whole moved : Traced GrammarError Node}
    (inner : moved.result = move.echo (Node.relined move.line) whole.result) :
    (report (first.relocate move) (rest.map (Token.relocate move)) >>= fun _ => moved).result =
      move.echo (Node.relined move.line) (report first rest >>= fun _ => whole).result := by
  have told : (report (first.relocate move) (rest.map (Token.relocate move))).result =
      move.echo id (report first rest).result := rfl
  exact move.echo_bind told fun _ => inner

section

variable {words : List Token} {anchor : Span}

theorem expect_relocate (context : String)
    (given : (read (words.map (Token.relocate move)) (anchor.relocate move)).result =
      move.echo (Node.relined move.line) (read words anchor).result) :
    (expect (words.map (Token.relocate move)) (anchor.relocate move) context).result =
      move.echo (Node.relined move.line) (expect words anchor context).result := by
  unfold expect
  rw [List.isEmpty_map]
  split
  · rfl
  · exact given

theorem readCallee_relocate (given : (read (words.map (Token.relocate move)) (anchor.relocate move)).result =
      move.echo (Node.relined move.line) (read words anchor).result) :
    (readCallee (words.map (Token.relocate move)) (anchor.relocate move)).result =
      move.echo (Node.relined move.line) (readCallee words anchor).result := by
  unfold readCallee
  rw [readShortHead?_relocate]
  cases readShortHead? words anchor with
  | some head => rfl
  | none => exact given

theorem readGiven_relocate (given : (read (words.map (Token.relocate move)) (anchor.relocate move)).result =
      move.echo (Node.relined move.line) (read words anchor).result) :
    (readGiven (words.map (Token.relocate move)) (anchor.relocate move)).result =
      move.echo (Node.relinedAll move.line) (readGiven words anchor).result := by
  unfold readGiven
  rw [List.isEmpty_map]
  split
  · rfl
  · exact move.echo_bind given fun argument => rfl

end

theorem read_relocate (words : List Token) (anchor : Span) :
    (read (words.map (Token.relocate move)) (anchor.relocate move)).result =
      move.echo (Node.relined move.line) (read words anchor).result := by
  have ofCut := Split.atKind?_relocate move (.keyword .ofWord)
  have operatorCut := Split.atOperator?_map (Token.relocate_keeps move)
  have without {words : List Token} (noOf : Split.atKind? (.keyword .ofWord) words = none) :
      Split.atKind? (.keyword .ofWord) (words.map (Token.relocate move)) = none := by rw [ofCut, noOf]; rfl
  have uncut {words : List Token} (free : Split.atOperator? words = none) :
      Split.atOperator? (words.map (Token.relocate move)) = none := by rw [operatorCut, free]; rfl
  induction words, anchor using read_induction with
  | nothing anchor =>
    rw [List.map_nil, read]
    rfl
  | called first rest anchor split cut before after =>
    have moved := ofCut (first :: rest)
    rw [cut] at moved
    rw [List.map_cons, read_called _ moved]
    refine reported_relocate move first rest (move.echo_bind (readCallee_relocate move before) fun callee => ?_)
    exact move.echo_bind (readGiven_relocate move after) fun arguments => rfl
  | operation first rest anchor operator split noOf cut before after =>
    have moved := operatorCut (first :: rest)
    rw [cut] at moved
    rw [List.map_cons, read_operation _ (without noOf) moved]
    refine reported_relocate move first rest (move.echo_bind (expect_relocate move _ before) fun left => ?_)
    exact move.echo_bind (expect_relocate move _ after) fun right => rfl
  | name first rest anchor noOf free led =>
    rw [List.map_cons, read_whole _ (without noOf) (uncut free),
      if_pos (show (first.relocate move).isKeyword .theWord = true from led)]
    exact reported_relocate move first rest (readName_relocate move (first :: rest) anchor)
  | atom token anchor noOf free unled =>
    rw [List.map_cons, read_whole _ (without noOf) (uncut free),
      if_neg (show ¬ (token.relocate move).isKeyword .theWord = true from unled), if_pos (by rfl)]
    exact reported_relocate move token [] (readAtom_relocate move token)
  | beside first rest anchor noOf free unled filled given =>
    rw [List.map_cons, read_whole _ (without noOf) (uncut free), List.isEmpty_map, if_neg filled,
      if_neg (show ¬ (first.relocate move).isKeyword .theWord = true from unled)]
    have head := readHeadWord_relocate move first
    refine reported_relocate move first rest (move.echo_bind head fun callee => ?_)
    exact move.echo_bind given fun argument => rfl

end Expression

namespace Statement

variable (move : Relocation)

theorem noMore_relocate (words : List Token) :
    Sentence.noMore (words.map (Token.relocate move)) = move.echo id (Sentence.noMore words) := by
  cases words <;> rfl

theorem readHeading_relocate (keyword : Token) (words : List Token) :
    readHeading (keyword.relocate move) (words.map (Token.relocate move)) =
      move.echo id (readHeading keyword words) := by
  unfold readHeading
  rw [Split.atKind?_relocate]
  cases Split.atKind? (.keyword .ofWord) words with
  | none => rfl
  | some ofSplit =>
    rw [Option.map_some, Split.map]
    dsimp only
    rw [Split.atKind?_relocate]
    cases Split.atKind? (.keyword .weMeanWord) ofSplit.after with
    | none => rfl
    | some meanSplit =>
      obtain ⟨between, means, after⟩ := meanSplit
      cases after with
      | cons extra others => rfl
      | nil =>
        refine bind_recast (Expression.joinWords_relocate move _ _) fun name => ?_
        exact bind_recast (Expression.joinWords_relocate move _ _) fun param => rfl

theorem readPlain_relocate (first : Token) (words : List Token) (stop : Span) :
    (readPlain (first.relocate move) (words.map (Token.relocate move)) (stop.relocate move)).result =
      move.echo (Node.relined move.line) (readPlain first words stop).result := by
  unfold readPlain
  rw [Split.atKind?_relocate]
  cases Split.atKind? (.keyword .isWord) words with
  | none => exact Expression.read_relocate move words stop
  | some split =>
    have named := Expression.readName_relocate move split.before split.found.span
    have given := Expression.expect_relocate move "after 'is'" (Expression.read_relocate move split.after stop)
    simp only [Option.map_some, Split.map, Traced.result_bind]
    exact bind_recast named fun target => bind_recast given fun value => rfl

theorem readReturns_relocate (keyword : Token) (words : List Token) (stop : Span) :
    (readReturns (keyword.relocate move) (words.map (Token.relocate move)) (stop.relocate move)).result =
      move.echo (Node.relined move.line) (readReturns keyword words stop).result := by
  unfold readReturns
  cases words with
  | nil => rfl
  | cons first rest =>
    have given := Expression.read_relocate move (first :: rest) stop
    simp only [List.isEmpty_map, List.isEmpty_cons, Bool.false_eq_true, reduceIte, Traced.result_bind]
    exact bind_recast given fun value => rfl

end Statement
end Parlance
