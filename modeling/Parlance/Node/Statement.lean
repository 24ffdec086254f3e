import Parlance.Node.Expression
import Parlance.Node.Parsed
import Parlance.Sentence

/-! Reading statements, blocks and programs. A statement takes its own sentence and, if it opens blocks, the
tokens of those blocks; a block is a run of statements between two tokens of indentation. -/
namespace Parlance

/-- Refuses words after a statement that needs none. -/
def Sentence.noMore : List Token → Except GrammarError Unit
  | [] => .ok ()
  | extra :: _ => .error (.trailingTokens extra.span extra.describe)

/-- Whether the sentence is a single word. -/
def Sentence.alone (sentence : Sentence) : Except GrammarError Unit :=
  Sentence.noMore sentence.words.tail

/-- Takes one token of the given kind. -/
def Token.consume (kind : Kind) (anchor : Span) (tokens : List Token) : Parsed tokens Token :=
  match tokens with
  | [] => .fail (.unexpectedEndOfInput anchor)
  | token :: rest =>
    if token.kind = kind then .widen (List.suffix_cons token rest) (.done token)
    else if kind = .beginIndent then .fail (.expectedBlock token.span token.describe)
    else if token.kind = .eof then .fail (.unexpectedEndOfInput token.span)
    else .fail (.unexpectedToken token.span s!"expected {kind.describe}, found {token.describe}")

namespace Statement

/-- The name and the parameter that a definition's words give, after its keyword. -/
def readHeading (keyword : Token) (words : List Token) : Except GrammarError (String × String) :=
  match Split.atKind? (.keyword .ofWord) words with
  | none => .error (.invalidDefinition keyword.span "expected keyword 'of' after the procedure name")
  | some ofSplit =>
    match Split.atKind? (.keyword .weMeanWord) ofSplit.after with
    | none => .error (.invalidDefinition ofSplit.found.span "expected 'we mean' after the parameter")
    | some meanSplit =>
      match meanSplit.after with
      | extra :: _ =>
        .error (.invalidDefinition extra.span s!"unexpected {extra.describe} after 'we mean'")
      | [] => do
        let name ← Expression.joinWords ofSplit.before ofSplit.found.span
        let param ← Expression.joinWords meanSplit.before meanSplit.found.span
        return (name, param)

/-- A statement of one sentence that no keyword leads: an assignment if it has an `is`, else an expression. -/
def readPlain (first : Token) (words : List Token) (stop : Span) : Traced GrammarError Node :=
  match Split.atKind? (.keyword .isWord) words with
  | some split => do
    let target ← .ofExcept (Expression.readName split.before split.found.span)
    let value ← Expression.expect split.after stop "after 'is'"
    return .assignment target value first.span.line
  | none => Expression.read words stop

def readReturns (keyword : Token) (words : List Token) (stop : Span) : Traced GrammarError Node := do
  let value ←
    if words.isEmpty then pure (.literal .nothing keyword.span.line) else Expression.read words stop
  return .returns value keyword.span.line

-- The names of what is left of the stream serve the termination arguments.
set_option linter.unusedVariables false in
mutual

/-- Reads the statement that a sentence begins; its blocks are read from the tokens. -/
def read (sentence : Sentence) (tokens : List Token) : Parsed tokens Node :=
  match sentence.words with
  | [] => .done (.literal .nothing sentence.stop.line)
  | first :: rest =>
    .tell [.statement first] <|
      match first.kind with
      | .keyword .ifWord => readConditional first rest sentence.stop tokens
      | .keyword .whileWord => readLoop first rest sentence.stop tokens
      | .keyword .byWord => readDefinition first rest sentence.stop tokens
      | .keyword .breakWord =>
        .ofTraced (.ofExcept ((Sentence.noMore rest).map fun _ => .breaks first.span.line))
      | .keyword .returnsWord => .ofTraced (readReturns first rest sentence.stop)
      | .beginIndent | .endIndent => .fail (.unexpectedIndentation first.span)
      | _ => .ofTraced (readPlain first (first :: rest) sentence.stop)
termination_by 4 * tokens.length + 3

/-- Reads on after `if` or `otif`. -/
def readConditional (keyword : Token) (words : List Token) (stop : Span) (tokens : List Token) :
    Parsed tokens Node :=
  (Parsed.ofTraced (Expression.expect words stop s!"after {keyword.kind.describe}")).andThen
    fun tokens₁ within₁ condition =>
  (readBlock stop tokens₁).andThen fun tokens₂ within₂ thenBlock =>
    match led : Sentence.led? .otherwiseWord tokens₂ with
    | some (_, sentence, after) =>
      .widen (Sentence.led?_suffix led) <|
        (Parsed.ofTraced (.ofExcept (Sentence.noMore sentence.words))).andThen fun tokens₃ within₃ _ =>
        (readBlock sentence.stop tokens₃).map fun elseBlock =>
          .conditional condition thenBlock elseBlock keyword.span.line
    | none =>
      match led : Sentence.led? .otifWord tokens₂ with
      | some (otif, sentence, after) =>
        .widen (Sentence.led?_suffix led) <|
          (readConditional otif sentence.words sentence.stop after).map fun inner =>
            .conditional condition thenBlock [inner] keyword.span.line
      | none => .done (.conditional condition thenBlock [] keyword.span.line)
termination_by 4 * tokens.length + 2
decreasing_by
  · have := within₁.length_le
    omega
  · have := within₁.length_le
    have := within₂.length_le
    have := within₃.length_le
    have := Sentence.led?_shorter led
    omega
  · have := within₁.length_le
    have := within₂.length_le
    have := Sentence.led?_shorter led
    omega

def readLoop (keyword : Token) (words : List Token) (stop : Span) (tokens : List Token) :
    Parsed tokens Node :=
  (Parsed.ofTraced (Expression.expect words stop s!"after {keyword.kind.describe}")).andThen
    fun tokens₁ within₁ condition =>
  (readBlock stop tokens₁).andThen fun tokens₂ within₂ body =>
    match led : Sentence.led? .otherwiseWord tokens₂ with
    | some (_, sentence, after) =>
      .widen (Sentence.led?_suffix led) <|
        (Parsed.ofTraced (.ofExcept (Sentence.noMore sentence.words))).andThen fun tokens₃ within₃ _ =>
        (readBlock sentence.stop tokens₃).map fun otherwise =>
          .loop condition body otherwise keyword.span.line
    | none => .done (.loop condition body [] keyword.span.line)
termination_by 4 * tokens.length + 2
decreasing_by
  · have := within₁.length_le
    omega
  · have := within₁.length_le
    have := within₂.length_le
    have := within₃.length_le
    have := Sentence.led?_shorter led
    omega

def readDefinition (keyword : Token) (words : List Token) (stop : Span) (tokens : List Token) :
    Parsed tokens Node :=
  match readHeading keyword words with
  | .error error => .fail error
  | .ok (name, param) =>
    .tell [.procedureNamed keyword.span name param] <|
      (readBlock stop tokens).map fun body => .definition name [param] body 0 keyword.span.line
termination_by 4 * tokens.length + 2

/-- Reads an indented block; `anchor` is where it was announced. -/
def readBlock (anchor : Span) (tokens : List Token) : Parsed tokens (List Node) :=
  (Token.consume .beginIndent anchor tokens).andThen fun tokens₁ within₁ _ => readRest anchor tokens₁
termination_by 4 * tokens.length + 1
decreasing_by
  have := within₁.length_le
  omega

/-- Reads the statements of a block that are left, and its end. -/
def readRest (anchor : Span) (tokens : List Token) : Parsed tokens (List Node) :=
  match tokens with
  | [] => .fail (.unterminatedBlock anchor)
  | token :: rest =>
    if token.kind = .endIndent then .widen (List.suffix_cons token rest) (.done [])
    else
      match next : Sentence.next? (token :: rest) with
      | none => .fail (.unterminatedBlock token.span)
      | some (sentence, after) =>
        .widen (Sentence.next?_suffix next) <|
          (read sentence after).andThen fun tokens₁ within₁ node =>
          (readRest anchor tokens₁).map (node :: ·)
termination_by 4 * tokens.length
decreasing_by
  · have := Sentence.next?_shorter next
    omega
  · have := Sentence.next?_shorter next
    have := within₁.length_le
    omega

end

end Statement

namespace Program

set_option linter.unusedVariables false in
/-- Reads statements as long as a sentence follows. -/
def readStatements (tokens : List Token) : Parsed tokens (List Node) :=
  match next : Sentence.next? tokens with
  | none => .done []
  | some (sentence, after) =>
    .widen (Sentence.next?_suffix next) <|
      (Statement.read sentence after).andThen fun tokens₁ within₁ node =>
      (readStatements tokens₁).map (node :: ·)
termination_by tokens.length
decreasing_by
  have := Sentence.next?_shorter next
  have := within₁.length_le
  omega

def read (tokens : List Token) : Parsed tokens (List Node) :=
  (readStatements tokens).andThen fun _ _ program => .tell [.programRead program.length] (.done program)

end Program
end Parlance
