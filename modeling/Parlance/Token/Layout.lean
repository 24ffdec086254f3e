import Parlance.Source
import Parlance.Text.Numeral
import Parlance.Text.Word
import Parlance.Token.Error
import Parlance.Traced

/-! From lines to tokens. The first indented line fixes the unit of indentation; every later line sits at a whole
number of units, and each change of level is marked by tokens of its own. -/
namespace Parlance

namespace Text.Word

/-- Whether the word stands for a reserved word of the language. -/
def isReserved (word : Word) (text : String) : Bool :=
  word.bounded && word.text == text

def keyword? (word : Word) : Option Keyword :=
  if word.bounded then Keyword.ofSpelling? word.text else none

/-- A word that is no keyword is a number if it begins with a numeric character. -/
def kind (word : Word) : Kind :=
  match word.keyword? with
  | some keyword => .keyword keyword
  | none => if word.text.toList.head?.any isNumeric then .number else .word

end Text.Word

namespace Token

def ofWord (span : Span) (word : Text.Word) : Token :=
  ⟨word.kind, word.text, span⟩

/-- The tokens of a line's words: `we mean` is one token, and `text` takes the rest of the line. -/
def ofWords (span : Span) : List Text.Word → List Token
  | [] => []
  | [word] => if word.isReserved "text" then [⟨.text, "", span⟩] else [ofWord span word]
  | word :: next :: rest =>
    if word.isReserved "text" then [⟨.text, Text.joined (next :: rest), span⟩]
    else if word.isReserved "we" && next.isReserved "mean" then
      ⟨.keyword .weMeanWord, Keyword.weMeanWord.spelling, span⟩ :: ofWords span rest
    else ofWord span word :: ofWords span (next :: rest)

end Token

/-- How a program is indented so far: the unit, once a line has fixed it, and the current level. -/
structure Layout where
  unit : Option Indent
  level : Nat
deriving DecidableEq, Repr

namespace Layout

def start : Layout := ⟨none, 0⟩

/-- The level of an indentation, measured in units. -/
def levelOf (span : Span) (indent unit : Indent) : Except TokenError Nat :=
  match indent.units unit with
  | .ok level => .ok level
  | .error .mixed => .error (.mixedIndentation span)
  | .error .inconsistent => .error (.inconsistentIndentation span indent unit)

/-- The level of a line, and the unit from this line on. -/
def place (layout : Layout) (span : Span) (indent : Indent) : Traced TokenError Layout :=
  if indent.isZero then pure ⟨layout.unit, 0⟩
  else match layout.unit with
    | some unit => do return ⟨some unit, ← .ofExcept (levelOf span indent unit)⟩
    | none => do
      .tell [.unitFixed span indent]
      return ⟨some indent, ← .ofExcept (levelOf span indent indent)⟩

/-- The tokens that lead from one level to another: upwards one level at a time, downwards any number. -/
def shift (span : Span) (before after : Nat) : Except TokenError (List Token) :=
  if before + 1 < after then .error (.indentJump span (after - before))
  else if before < after then .ok [Token.beginIndent span]
  else .ok (List.replicate (before - after) (Token.endIndent span))

def move (span : Span) (before after : Nat) : Traced TokenError (List Token) := do
  let tokens ← .ofExcept (shift span before after)
  .tell (tokens.map .tokenRead)
  if before ≠ after then .tell [.levelChanged span before after]
  return tokens

/-- The tokens of one line. A line with nothing but blanks has none and changes nothing. -/
def line (layout : Layout) (span : Span) (text : List Char) :
    Traced TokenError (Layout × List Token) :=
  let (indent, rest) := Indent.measure text
  if Text.allBlank rest then return (layout, [])
  else do
    let placed ← layout.place span indent
    let moved ← move span layout.level placed.level
    let tokens := Token.ofWords span (Text.words rest) ++ [Token.newline span]
    .tell (tokens.map .tokenRead)
    return (placed, moved ++ tokens)

/-- The tokens of the lines after the first `count`. -/
def lines (name : String) (count : Nat) (layout : Layout) : List RawLine → Traced TokenError (List Token)
  | [] => do
    let moved ← move ⟨name, count⟩ layout.level 0
    .tell [.tokenRead (Token.eof ⟨name, count⟩)]
    return moved ++ [Token.eof ⟨name, count⟩]
  | none :: _ => .fail (.unreadable name .garbled)
  | some text :: rest => do
    let (layout, tokens) ← layout.line ⟨name, count + 1⟩ text.toList
    (tokens ++ ·) <$> lines name (count + 1) layout rest

end Layout

/-- The tokens of a whole source, with the end of the input last. -/
def Source.tokens (source : Source) : Traced TokenError (List Token) := do
  let tokens ← Layout.lines source.name 0 .start source.lines
  .tell [.sourceRead source.name source.lines.length tokens.length]
  return tokens

end Parlance
