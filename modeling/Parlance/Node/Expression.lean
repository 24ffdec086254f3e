import Parlance.Node
import Parlance.Node.Error
import Parlance.Operator
import Parlance.Traced

/-! Reading expressions. An expression is split at its first `of`, else at the first operator of the fixed order
that occurs in it, else it is a name after `the`, a single word, or a call written without `of`. -/
namespace Parlance

/-- A list of words cut at one of them. -/
structure Split where
  before : List Token
  found : Token
  after : List Token
deriving DecidableEq, Repr

namespace Split

def at? (wanted : Token → Bool) : List Token → Option Split
  | [] => none
  | token :: rest =>
    if wanted token then some ⟨[], token, rest⟩
    else (at? wanted rest).map fun split => ⟨token :: split.before, split.found, split.after⟩

def atKind? (kind : Kind) (words : List Token) : Option Split :=
  at? (·.kind == kind) words

def atWord? (text : String) (words : List Token) : Option Split :=
  at? (·.isWord text) words

/-- The cut at the first operator, in the operators' own order, that occurs at all. -/
def atOperator? (words : List Token) : Option (Operator × Split) :=
  Operator.all.findSome? fun operator => (atWord? operator.spelling words).map (operator, ·)

theorem at?_join {wanted : Token → Bool} {words : List Token} {split : Split}
    (cut : at? wanted words = some split) : split.before ++ split.found :: split.after = words := by
  induction words generalizing split with
  | nil => simp [at?] at cut
  | cons token rest ih =>
    simp only [at?] at cut
    split at cut
    · simp only [Option.some.injEq] at cut
      simp [← cut]
    · obtain ⟨inner, cutInner, rfl⟩ := Option.map_eq_some_iff.mp cut
      simp [ih cutInner]

theorem atKind?_length {kind : Kind} {words : List Token} {split : Split}
    (cut : atKind? kind words = some split) :
    split.before.length + split.after.length + 1 = words.length := by
  have joined := congrArg List.length (at?_join cut)
  simp at joined
  omega

theorem atOperator?_length {words : List Token} {operator : Operator} {split : Split}
    (cut : atOperator? words = some (operator, split)) :
    split.before.length + split.after.length + 1 = words.length := by
  obtain ⟨_, _, found⟩ := List.exists_of_findSome?_eq_some cut
  obtain ⟨_, cutWord, same⟩ := Option.map_eq_some_iff.mp found
  simp only [Prod.mk.injEq] at same
  have joined := congrArg List.length (at?_join cutWord)
  rw [same.2] at joined
  simp at joined
  omega

end Split

namespace Expression

/-- The lexemes of plain words, with one space between neighbours. -/
def joinWords (words : List Token) (anchor : Span) : Except GrammarError String :=
  if words.isEmpty then .error (.expectedWord anchor "nothing")
  else match words.find? (·.kind != .word) with
    | some bad => .error (.expectedWord bad.span bad.describe)
    | none => .ok (" ".intercalate (words.map Token.lexeme))

/-- A name: `the` and one or more plain words. -/
def readName (words : List Token) (anchor : Span) : Except GrammarError Node :=
  match words with
  | [] => .error (.invalidTarget anchor "nothing")
  | first :: rest =>
    if first.isKeyword .theWord then do return .identifier (← joinWords rest anchor) first.span.line
    else .error (.invalidTarget first.span first.describe)

def readAtom (token : Token) : Except GrammarError Node :=
  match token.kind with
  | .number =>
    match Number.read? token.lexeme.toList with
    | some n => .ok (.literal (.number n) token.span.line)
    | none => .error (.invalidNumber token.span token.lexeme)
  | .keyword .trueWord => .ok (.literal (.boolean true) token.span.line)
  | .keyword .falseWord => .ok (.literal (.boolean false) token.span.line)
  | .text => .ok (.literal (.text token.lexeme) token.span.line)
  | _ => .error (.unexpectedToken token.span token.describe)

/-- The procedure that a single token names. -/
def readHeadWord (token : Token) : Except GrammarError Node :=
  if token.kind = .word then .ok (.identifier token.lexeme token.span.line) else readAtom token

/-- The procedure before `of`, unless it takes two or more words to name. -/
def readShortHead? (words : List Token) (anchor : Span) : Option (Except GrammarError Node) :=
  match words with
  | [] => some (.error (.missingExpression anchor "naming the procedure before 'of'"))
  | [token] => some (readHeadWord token)
  | _ => none

-- The cuts' names serve the termination argument.
set_option linter.unusedVariables false in
def read (words : List Token) (anchor : Span) : Traced GrammarError Node :=
  match words with
  | [] => .fail (.missingExpression anchor "here")
  | first :: rest => do
    .tell [.expression first.span (first :: rest).length]
    match cut : Split.atKind? (.keyword .ofWord) (first :: rest) with
    | some split => do
      let callee ← match readShortHead? split.before split.found.span with
        | some head => .ofExcept head
        | none => read split.before split.found.span
      let arguments ← if split.after.isEmpty then pure [] else (do return [← read split.after anchor])
      return .call callee arguments first.span.line
    | none =>
      match cut : Split.atOperator? (first :: rest) with
      | some (operator, split) => do
        let left ←
          if split.before.isEmpty then
            .fail (.missingExpression split.found.span s!"before '{operator.spelling}'")
          else read split.before split.found.span
        let right ←
          if split.after.isEmpty then .fail (.missingExpression anchor s!"after '{operator.spelling}'")
          else read split.after anchor
        return .call (.identifier operator.procedureName first.span.line) [left, right] first.span.line
      | none =>
        if first.isKeyword .theWord then .ofExcept (readName (first :: rest) anchor)
        else if rest.isEmpty then .ofExcept (readAtom first)
        else do
          let callee ← .ofExcept (readHeadWord first)
          let argument ← read rest anchor
          return .call callee [argument] first.span.line
termination_by words.length
decreasing_by
  · have lengths := Split.atKind?_length cut
    simp only [List.length_cons] at lengths ⊢
    omega
  · have lengths := Split.atKind?_length cut
    simp only [List.length_cons] at lengths ⊢
    omega
  · have lengths := Split.atOperator?_length cut
    simp only [List.length_cons] at lengths ⊢
    omega
  · have lengths := Split.atOperator?_length cut
    simp only [List.length_cons] at lengths ⊢
    omega
  · simp

/-- Reads an expression that must be there; `context` says where. -/
def expect (words : List Token) (anchor : Span) (context : String) : Traced GrammarError Node :=
  if words.isEmpty then .fail (.missingExpression anchor context) else read words anchor

end Expression
end Parlance
