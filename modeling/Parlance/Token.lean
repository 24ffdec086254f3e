import Parlance.Span

/-! Tokens: the words of a program, the ends of its lines, and where its indentation changes. -/
namespace Parlance

inductive Keyword where
  | isWord | theWord | thatWord | ofWord | ifWord | otherwiseWord | otifWord | forWord
  | whileWord | trueWord | falseWord | breakWord | byWord | weMeanWord | returnsWord
deriving DecidableEq, Repr

namespace Keyword

def spelling : Keyword → String
  | .isWord => "is"
  | .theWord => "the"
  | .thatWord => "that"
  | .ofWord => "of"
  | .ifWord => "if"
  | .otherwiseWord => "otherwise"
  | .otifWord => "otif"
  | .forWord => "for"
  | .whileWord => "while"
  | .trueWord => "true"
  | .falseWord => "false"
  | .breakWord => "break"
  | .byWord => "by"
  | .weMeanWord => "we mean"
  | .returnsWord => "returns"

def all : List Keyword :=
  [.isWord, .theWord, .thatWord, .ofWord, .ifWord, .otherwiseWord, .otifWord, .forWord,
    .whileWord, .trueWord, .falseWord, .breakWord, .byWord, .weMeanWord, .returnsWord]

def ofSpelling? (text : String) : Option Keyword :=
  all.find? (·.spelling == text)

end Keyword

inductive Kind where
  | newline
  | eof
  | beginIndent
  | endIndent
  | number
  | word
  | text
  | keyword (keyword : Keyword)
deriving DecidableEq, Repr

def Kind.describe : Kind → String
  | .newline => "end of line"
  | .eof => "end of input"
  | .beginIndent => "indentation"
  | .endIndent => "end of indentation"
  | .number => "number"
  | .word => "word"
  | .text => "text"
  | .keyword k => s!"keyword '{k.spelling}'"

structure Token where
  kind : Kind
  lexeme : String
  span : Span
deriving DecidableEq, Repr

namespace Token

def newline (span : Span) : Token := ⟨.newline, "\n", span⟩

def eof (span : Span) : Token := ⟨.eof, "", span⟩

def beginIndent (span : Span) : Token := ⟨.beginIndent, "", span⟩

def endIndent (span : Span) : Token := ⟨.endIndent, "", span⟩

def isKeyword (token : Token) (keyword : Keyword) : Bool :=
  token.kind == .keyword keyword

/-- Whether the token is the plain word `text`. -/
def isWord (token : Token) (text : String) : Bool :=
  token.kind == .word && token.lexeme == text

def describe (token : Token) : String :=
  match token.kind with
  | .number | .word | .text => s!"{token.kind.describe} '{token.lexeme}'"
  | _ => token.kind.describe

end Token
end Parlance
