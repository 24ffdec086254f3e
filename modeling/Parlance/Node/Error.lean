import Parlance.Span

/-! Why tokens do not make a program. -/
namespace Parlance

inductive GrammarError where
  | unexpectedToken (span : Span) (token : String)
  | unexpectedEndOfInput (span : Span)
  | expectedBlock (span : Span) (found : String)
  | unterminatedBlock (span : Span)
  | unexpectedIndentation (span : Span)
  | invalidDefinition (span : Span) (details : String)
  | invalidTarget (span : Span) (found : String)
  | expectedWord (span : Span) (found : String)
  | invalidNumber (span : Span) (lexeme : String)
  | trailingTokens (span : Span) (token : String)
  | missingExpression (span : Span) (context : String)
deriving DecidableEq, Repr

namespace GrammarError

def span : GrammarError → Span
  | .unexpectedToken span _ | .unexpectedEndOfInput span | .expectedBlock span _
  | .unterminatedBlock span | .unexpectedIndentation span | .invalidDefinition span _
  | .invalidTarget span _ | .expectedWord span _ | .invalidNumber span _ | .trailingTokens span _
  | .missingExpression span _ => span

def complaint : GrammarError → String
  | .unexpectedToken _ token => s!"Unexpected token: {token}."
  | .unexpectedEndOfInput _ => "Unexpected end of input."
  | .expectedBlock _ found => s!"Expected an indented block, but found {found}."
  | .unterminatedBlock _ => "The input ended inside an indented block."
  | .unexpectedIndentation _ =>
    "Unexpected indentation. Only 'if', 'otherwise', 'otif', 'while' and 'by' open a block."
  | .invalidDefinition _ details =>
    s!"Invalid procedure definition: {details}. Example: by square of n we mean"
  | .invalidTarget _ found => s!"Expected 'the' to begin the name being assigned, found {found}."
  | .expectedWord _ found => s!"Expected a plain word inside a name, found {found}."
  | .invalidNumber _ lexeme => s!"'{lexeme}' is not a valid number."
  | .trailingTokens _ token => s!"Extra tokens after statement: {token}."
  | .missingExpression _ context => s!"Expected an expression {context}."

def message (error : GrammarError) : String :=
  s!"Error at {error.span.describe}: {error.complaint}"

end GrammarError
end Parlance
