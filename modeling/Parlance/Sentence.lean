import Parlance.Token

/-! A sentence is what one line of the program says: the tokens up to the end of the line, and where that end is.
Reading one leaves a shorter stream. -/
namespace Parlance

structure Sentence where
  words : List Token
  stop : Span
deriving DecidableEq, Repr

namespace Sentence

def line (sentence : Sentence) : Nat :=
  match sentence.words with
  | [] => sentence.stop.line
  | first :: _ => first.span.line

/-- The words up to the end of the line, that end, and the tokens after it. An end of the input is left in
place. A stream that just stops ends where its last word is, or at `last` if there is none. -/
def collect (last : Span) : List Token → List Token × Span × List Token
  | [] => ([], last, [])
  | token :: rest =>
    match token.kind with
    | .newline => ([], token.span, rest)
    | .eof => ([], token.span, token :: rest)
    | _ =>
      let (words, stop, after) := collect token.span rest
      (token :: words, stop, after)

/-- Whether a sentence follows. -/
def isNext : List Token → Bool
  | [] => false
  | token :: _ => token.kind ≠ .eof

def next? (tokens : List Token) : Option (Sentence × List Token) :=
  match tokens with
  | [] => none
  | token :: _ =>
    if token.kind = .eof then none
    else
      let (words, stop, after) := collect token.span tokens
      some (⟨words, stop⟩, after)

/-- The next sentence, if it begins with a token of this kind. -/
def nextIf? (kind : Kind) (tokens : List Token) : Option (Sentence × List Token) :=
  match tokens with
  | [] => none
  | token :: _ => if token.kind = kind then next? tokens else none

/-- A sentence led by a keyword: the keyword, the words after it, and the tokens that remain. -/
def led? (keyword : Keyword) : List Token → Option (Token × Sentence × List Token)
  | [] => none
  | token :: rest =>
    if token.isKeyword keyword then
      let (words, stop, after) := collect token.span rest
      some (token, ⟨words, stop⟩, after)
    else none

theorem collect_suffix (last : Span) (tokens : List Token) : (collect last tokens).2.2 <:+ tokens := by
  induction tokens generalizing last with
  | nil => exact List.suffix_refl _
  | cons token rest ih =>
    simp only [collect]
    split
    · exact List.suffix_cons _ _
    · exact List.suffix_refl _
    · exact (ih token.span).trans (List.suffix_cons _ _)

theorem next?_suffix {tokens after : List Token} {sentence : Sentence}
    (read : next? tokens = some (sentence, after)) : after <:+ tokens := by
  unfold next? at read
  split at read
  · simp at read
  · rename_i token rest
    split at read
    · simp at read
    · simp only [Option.some.injEq, Prod.mk.injEq] at read
      exact read.2 ▸ collect_suffix token.span (token :: rest)

theorem next?_shorter {tokens after : List Token} {sentence : Sentence}
    (read : next? tokens = some (sentence, after)) : after.length < tokens.length := by
  unfold next? at read
  split at read
  · simp at read
  · rename_i token rest
    have inside := (collect_suffix token.span rest).length_le
    split at read
    · simp at read
    · rename_i notEnd
      simp only [collect, Option.some.injEq, Prod.mk.injEq] at read
      split at read
      · exact Nat.lt_succ_of_le (Nat.le_of_eq (congrArg List.length read.2).symm)
      · rename_i ended
        exact absurd ended notEnd
      · rw [← read.2]
        exact Nat.lt_succ_of_le inside

theorem led?_suffix {keyword : Keyword} {tokens after : List Token} {token : Token} {sentence : Sentence}
    (read : led? keyword tokens = some (token, sentence, after)) : after <:+ tokens := by
  unfold led? at read
  split at read
  · simp at read
  · rename_i first rest
    split at read
    · simp only [Option.some.injEq, Prod.mk.injEq] at read
      exact read.2.2 ▸ (collect_suffix first.span rest).trans (List.suffix_cons first rest)
    · simp at read

theorem led?_shorter {keyword : Keyword} {tokens after : List Token} {token : Token} {sentence : Sentence}
    (read : led? keyword tokens = some (token, sentence, after)) : after.length < tokens.length := by
  unfold led? at read
  split at read
  · simp at read
  · rename_i first rest
    split at read
    · simp only [Option.some.injEq, Prod.mk.injEq] at read
      have inside := (collect_suffix first.span rest).length_le
      rw [read.2.2] at inside
      exact Nat.lt_succ_of_le inside
    · simp at read

end Sentence
end Parlance
