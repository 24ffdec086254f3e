import Parlance.Text.Blank

/-! The words of a line: its longest runs of characters that are not blank. -/
namespace Parlance.Text

structure Word where
  text : String
  /-- The word ends at an ASCII blank or with the line. Only such a word can be a keyword. -/
  bounded : Bool
deriving DecidableEq, Repr

/-- The word whose characters were seen last to first, if there were any. -/
def Word.close (seen : List Char) (bounded : Bool) : List Word :=
  match seen with
  | [] => []
  | _ :: _ => [⟨String.ofList seen.reverse, bounded⟩]

def wordsFrom (seen : List Char) : List Char → List Word
  | [] => Word.close seen true
  | c :: rest =>
    if isBlank c then Word.close seen (isAscii c) ++ wordsFrom [] rest
    else wordsFrom (c :: seen) rest

def words (text : List Char) : List Word :=
  wordsFrom [] text

/-- The words' texts with one space between neighbours. -/
def joined (ws : List Word) : String :=
  " ".intercalate (ws.map Word.text)

end Parlance.Text
