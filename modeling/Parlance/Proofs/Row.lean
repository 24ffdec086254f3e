import Mathlib.Data.List.TakeWhile
import Parlance.Token.Layout

/-! The rows of a source are its lines that are not blank. A row's indentation is the tabs and spaces that it begins
with, and its level is that indentation measured in the one of the first indented row. All of this is said of the text
alone, without reading it as a program. -/
namespace Parlance

namespace Indent

def isIndentation (c : Char) : Bool :=
  c == '\t' || c == ' '

/-- The tabs and spaces at the beginning of a text. -/
def leading (text : List Char) : Indent :=
  let lead := text.takeWhile isIndentation
  ⟨lead.count '\t', lead.count ' '⟩

def amount (indent : Indent) : Nat :=
  indent.tabs + indent.spaces

/-- Both are of tabs or neither is. Of indentations that are not mixed this compares the kinds. -/
def SameKind (indent unit : Indent) : Prop :=
  indent.tabs = 0 ↔ unit.tabs = 0

instance (indent unit : Indent) : Decidable (SameKind indent unit) :=
  inferInstanceAs (Decidable (_ ↔ _))

/-- How many units the indentation amounts to, if it is a whole number of them. Without a unit nothing is indented. -/
def level (unit : Option Indent) (indent : Indent) : Nat :=
  match unit with
  | none => 0
  | some unit => indent.amount / unit.amount

theorem isZero_iff (indent : Indent) : indent.isZero = true ↔ indent.amount = 0 := by
  simp [isZero, amount]

theorem isMixed_iff (indent : Indent) : indent.isMixed = true ↔ 0 < indent.tabs ∧ 0 < indent.spaces := by
  simp [isMixed]

theorem level_of_isZero (unit : Option Indent) {indent : Indent} (zero : indent.isZero = true) :
    indent.level unit = 0 := by
  have empty := (isZero_iff indent).mp zero
  cases unit <;> simp [level, empty]

theorem measure_eq (text : List Char) : measure text = (leading text, text.dropWhile isIndentation) := by
  fun_induction measure text with
  | case1 rest indent after measured ih =>
    rw [measured, Prod.mk.injEq] at ih
    simp [leading, isIndentation, ih.1, ih.2]
  | case2 rest indent after measured ih =>
    rw [measured, Prod.mk.injEq] at ih
    simp [leading, isIndentation, ih.1, ih.2]
  | case3 text noTab noSpace =>
    cases text with
    | nil => rfl
    | cons c rest =>
      have tab : c ≠ '\t' := fun same => noTab rest (same ▸ rfl)
      have space : c ≠ ' ' := fun same => noSpace rest (same ▸ rfl)
      simp [leading, isIndentation, tab, space]

end Indent

namespace Text

theorem isBlank_of_isIndentation {c : Char} (indents : Indent.isIndentation c = true) : isBlank c = true := by
  simp only [Indent.isIndentation, Bool.or_eq_true, beq_iff_eq] at indents
  rcases indents with rfl | rfl <;> decide

theorem dropWhile_eq_nil_iff_allBlank (text : List Char) : text.dropWhile isBlank = [] ↔ allBlank text = true := by
  simp [allBlank, List.dropWhile_eq_nil_iff]

/-- Trimming leaves nothing of a text just when all of it is blank. -/
theorem trim_eq_nil_iff (text : List Char) : trim text = [] ↔ allBlank text = true := by
  unfold trim
  rw [List.reverse_eq_nil_iff, dropWhile_eq_nil_iff_allBlank, ← dropWhile_eq_nil_iff_allBlank text]
  constructor
  · intro blank
    by_contra visible
    -- What is left after the leading blanks begins with a character that is not one.
    have head := List.head_dropWhile_not isBlank visible
    have member := List.head_mem visible
    simp only [allBlank, List.all_reverse, List.all_eq_true] at blank
    rw [blank _ member] at head
    cases head
  · intro empty
    simp [empty, allBlank]

theorem allBlank_dropWhile (text : List Char) :
    allBlank (text.dropWhile Indent.isIndentation) = allBlank text := by
  induction text with
  | nil => rfl
  | cons c rest ih =>
    rw [List.dropWhile_cons]
    split
    · rename_i indents
      simpa [allBlank, isBlank_of_isIndentation indents] using ih
    · rfl

/-- The indentation of a text has no part in its words. -/
theorem words_dropWhile (text : List Char) : words (text.dropWhile Indent.isIndentation) = words text := by
  induction text with
  | nil => rfl
  | cons c rest ih =>
    rw [List.dropWhile_cons]
    split
    · rename_i indents
      simpa [words, wordsFrom, isBlank_of_isIndentation indents, Word.close] using ih
    · rfl

theorem wordsFrom_ne_nil {seen text : List Char} (visible : seen ≠ [] ∨ allBlank text = false) :
    wordsFrom seen text ≠ [] := by
  induction text generalizing seen with
  | nil =>
    cases seen with
    | nil => simp [allBlank] at visible
    | cons c seen => simp [wordsFrom, Word.close]
  | cons c rest ih =>
    simp only [wordsFrom]
    split
    · rename_i blank
      cases seen with
      | nil =>
        have later : allBlank rest = false := by simpa [allBlank, blank] using visible
        simpa [Word.close] using ih (.inr later)
      | cons c seen => simp [Word.close]
    · exact ih (.inl (List.cons_ne_nil _ _))

theorem words_ne_nil {text : List Char} (visible : allBlank text = false) : words text ≠ [] :=
  wordsFrom_ne_nil (.inr visible)

end Text

theorem Token.ofWords_ne_nil (span : Span) {words : List Text.Word} (some : words ≠ []) : ofWords span words ≠ [] := by
  fun_cases ofWords span words <;> simp_all

/-! ### Rows -/

/-- A line that is not blank, and its number. -/
structure Row where
  number : Nat
  text : List Char
deriving DecidableEq, Repr

namespace Row

def ofLine? (number : Nat) (line : RawLine) : Option Row :=
  line.bind fun text => if Text.trim text.toList = [] then none else some ⟨number, text.toList⟩

/-- The rows among lines of which the first one has the given number. -/
def ofLines (first : Nat) (lines : List RawLine) : List Row :=
  (lines.zipIdx first).filterMap fun (line, number) => ofLine? number line

def indent (row : Row) : Indent :=
  Indent.leading row.text

/-- The indentation of the first indented row. -/
def unit? (rows : List Row) : Option Indent :=
  (rows.map indent).find? (!·.isZero)

def level (unit : Option Indent) (row : Row) : Nat :=
  row.indent.level unit

def span (name : String) (row : Row) : Span :=
  ⟨name, row.number⟩

def words (name : String) (row : Row) : List Token :=
  Token.ofWords (row.span name) (Text.words row.text)

@[simp] theorem ofLines_nil (first : Nat) : ofLines first [] = [] := rfl

theorem ofLine?_blank (number : Nat) {text : String} (blank : Text.allBlank text.toList = true) :
    ofLine? number (some text) = none := by
  simp [ofLine?, (Text.trim_eq_nil_iff _).mpr blank]

theorem ofLine?_visible (number : Nat) {text : String} (visible : Text.allBlank text.toList = false) :
    ofLine? number (some text) = some ⟨number, text.toList⟩ := by
  have kept : Text.trim text.toList ≠ [] := by simp [Text.trim_eq_nil_iff, visible]
  simp [ofLine?, kept]

theorem ofLines_cons (first : Nat) (line : RawLine) (rest : List RawLine) :
    ofLines first (line :: rest) = (ofLine? first line).toList ++ ofLines (first + 1) rest := by
  cases found : ofLine? first line <;> simp [ofLines, found]

theorem ofLine?_number {number : Nat} {line : RawLine} {row : Row} (found : ofLine? number line = some row) :
    row.number = number ∧ Text.allBlank row.text = false := by
  obtain ⟨text, rfl, kept⟩ := Option.bind_eq_some_iff.mp found
  split at kept
  · cases kept
  · rename_i visible
    cases kept
    exact ⟨rfl, by simpa [Text.trim_eq_nil_iff] using visible⟩

theorem first_le_number {first : Nat} {lines : List RawLine} : ∀ row ∈ ofLines first lines, first ≤ row.number := by
  induction lines generalizing first with
  | nil => simp
  | cons line rest ih =>
    intro row member
    rw [ofLines_cons] at member
    rcases List.mem_append.mp member with here | later
    · have same := (ofLine?_number (Option.mem_toList.mp here)).1
      omega
    · have := ih row later
      omega

theorem ofLines_visible {first : Nat} {lines : List RawLine} :
    ∀ row ∈ ofLines first lines, Text.allBlank row.text = false := by
  intro row member
  obtain ⟨⟨line, number⟩, _, found⟩ := List.mem_filterMap.mp member
  exact (ofLine?_number found).2

/-- Rows come in the order of their numbers, and no two have the same. -/
theorem ofLines_increasing (first : Nat) (lines : List RawLine) :
    ((ofLines first lines).map number).Pairwise (· < ·) := by
  induction lines generalizing first with
  | nil => simp
  | cons line rest ih =>
    rw [ofLines_cons]
    cases found : ofLine? first line with
    | none => exact ih (first + 1)
    | some row =>
      simp only [Option.toList_some, List.singleton_append, List.map_cons, List.pairwise_cons, List.mem_map]
      refine ⟨?_, ih (first + 1)⟩
      rintro _ ⟨later, member, rfl⟩
      have bound := first_le_number later member
      have here := (ofLine?_number found).1
      omega

theorem words_ne_nil (name : String) {row : Row} (visible : Text.allBlank row.text = false) : row.words name ≠ [] :=
  Token.ofWords_ne_nil _ (Text.words_ne_nil visible)

end Row

namespace Source

def rows (source : Source) : List Row :=
  Row.ofLines 1 source.lines

def unit? (source : Source) : Option Indent :=
  Row.unit? source.rows

end Source
end Parlance
