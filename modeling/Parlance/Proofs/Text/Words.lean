import Parlance.Proofs.Node.Print
import Parlance.Proofs.Token.Tight
import Parlance.Text.Lines

/-! Words and lines that are put together come apart again: words without blanks that are joined by spaces are the words
of what they make, and lines without line feeds that are joined by them are its lines. -/
namespace Parlance.Text

/-- A word that nothing but an ASCII blank or the end of the line follows. -/
def Word.whole (text : String) : Word :=
  ⟨text, true⟩

@[simp] theorem Word.whole_text (text : String) : (Word.whole text).text = text := rfl

theorem wordsFrom_blank {c : Char} (blank : isBlank c = true) (ascii : isAscii c = true) (seen before after : List Char) :
    wordsFrom seen (before ++ c :: after) = wordsFrom seen before ++ words after := by
  induction before generalizing seen with
  | nil => simp [wordsFrom, words, blank, ascii]
  | cons d before ih =>
    simp only [List.cons_append, wordsFrom]
    split
    · rw [ih, List.append_assoc]
    · exact ih (d :: seen)

theorem words_space (before after : List Char) : words (before ++ ' ' :: after) = words before ++ words after :=
  wordsFrom_blank rfl rfl [] before after

theorem words_blanks {blanks : List Char} (blank : ∀ c ∈ blanks, isBlank c = true) (text : List Char) :
    words (blanks ++ text) = words text := by
  induction blanks with
  | nil => rfl
  | cons c blanks ih =>
    obtain ⟨first, rest⟩ := List.forall_mem_cons.mp blank
    simpa [words, wordsFrom, first, Word.close] using ih rest

theorem wordsFrom_visible_append {front : List Char} (visible : ∀ c ∈ front, isBlank c = false)
    (seen after : List Char) : wordsFrom seen (front ++ after) = wordsFrom (front.reverse ++ seen) after := by
  induction front generalizing seen with
  | nil => rfl
  | cons c front ih =>
    obtain ⟨first, later⟩ := List.forall_mem_cons.mp visible
    simp [wordsFrom, first, ih later]

theorem wordsFrom_visible {text : List Char} (visible : ∀ c ∈ text, isBlank c = false) (seen : List Char) :
    wordsFrom seen text = Word.close (text.reverse ++ seen) true := by
  have closed := wordsFrom_visible_append visible seen []
  rwa [List.append_nil] at closed

theorem Tight.close {text : String} (tight : Tight text) (bounded : Bool) :
    Word.close text.toList.reverse bounded = [⟨text, bounded⟩] := by
  unfold Word.close
  split
  · rename_i empty
    exact absurd (List.reverse_eq_nil_iff.mp empty) tight.1
  · rw [List.reverse_reverse, String.ofList_toList]

theorem Tight.words {text : String} (tight : Tight text) : words text.toList = [Word.whole text] := by
  rw [Text.words, wordsFrom_visible tight.2, List.append_nil, tight.close]
  rfl

theorem words_intercalate {parts : List String} (tight : ∀ part ∈ parts, Tight part) :
    words (" ".intercalate parts).toList = parts.map Word.whole := by
  rw [String.toList_intercalate]
  induction parts with
  | nil => rfl
  | cons part rest ih =>
    obtain ⟨first, later⟩ := List.forall_mem_cons.mp tight
    cases rest with
    | nil => simpa using first.words
    | cons next rest =>
      have spaced := words_space part.toList (" ".toList.intercalate ((next :: rest).map String.toList))
      rw [first.words, ih later] at spaced
      simpa [List.intercalate_cons_cons] using spaced

theorem mem_intercalate {parts : List String} {c : Char} (member : c ∈ (" ".intercalate parts).toList) :
    c = ' ' ∨ ∃ part ∈ parts, c ∈ part.toList := by
  rw [String.toList_intercalate] at member
  induction parts with
  | nil => cases member
  | cons part rest ih =>
    cases rest with
    | nil => exact .inr ⟨part, List.mem_cons_self, by simpa using member⟩
    | cons next rest =>
      rw [List.map_cons, List.map_cons, List.intercalate_cons_cons, List.append_assoc, List.mem_append] at member
      rcases member with here | later
      · exact .inr ⟨part, List.mem_cons_self, here⟩
      · rcases List.mem_append.mp later with space | further
        · exact .inl (List.mem_singleton.mp space)
        · exact (ih further).imp id fun ⟨other, inside, within⟩ => ⟨other, .tail _ inside, within⟩

theorem wordsOf_intercalate {parts : List String} (tight : ∀ part ∈ parts, Tight part) :
    wordsOf (" ".intercalate parts) = parts := by
  rw [wordsOf, words_intercalate tight, List.map_map]
  exact List.map_id parts

theorem Tight.wordsOf {text : String} (tight : Tight text) : wordsOf text = [text] := by
  simp [Text.wordsOf, tight.words]

theorem wordsOf_tight (text : String) : ∀ word ∈ wordsOf text, Tight word := by
  intro word member
  obtain ⟨cut, inside, rfl⟩ := List.mem_map.mp member
  exact words_tight _ cut inside

/-- Only a blank beyond ASCII makes a word that is not bounded. -/
theorem wordsFrom_bounded {text : List Char} (blanks : ∀ c ∈ text, isBlank c = true → isAscii c = true)
    (seen : List Char) : ∀ word ∈ wordsFrom seen text, word.bounded = true := by
  have closed (seen : List Char) : ∀ word ∈ Word.close seen true, word.bounded = true := by
    cases seen <;> simp [Word.close]
  induction text generalizing seen with
  | nil => exact closed seen
  | cons c rest ih =>
    obtain ⟨first, later⟩ := List.forall_mem_cons.mp blanks
    simp only [wordsFrom]
    split
    · rename_i blank
      rw [first blank]
      exact List.forall_mem_append.mpr ⟨closed seen, ih later []⟩
    · exact ih later (c :: seen)

theorem words_bounded {text : List Char} (blanks : ∀ c ∈ text, isBlank c = true → isAscii c = true) :
    ∀ word ∈ words text, word.bounded = true :=
  wordsFrom_bounded blanks []

section Lines

variable {α : Type} [DecidableEq α] {feed ret : α}

theorem splitLinesFrom_line {line : List α} (whole : feed ∉ line) (seen rest : List α) :
    splitLinesFrom feed ret seen (line ++ rest) = splitLinesFrom feed ret (line.reverse ++ seen) rest := by
  induction line generalizing seen with
  | nil => rfl
  | cons c line ih =>
    obtain ⟨other, later⟩ := List.ne_and_not_mem_of_not_mem_cons whole
    rw [List.cons_append, splitLinesFrom, if_neg other.symm, ih later]
    simp

theorem splitLinesFrom_append (seen front rest : List α) :
    splitLinesFrom feed ret seen (front ++ feed :: rest) =
      splitLinesFrom feed ret seen (front ++ [feed]) ++ splitLines feed ret rest := by
  induction front generalizing seen with
  | nil => simp [splitLinesFrom, splitLines]
  | cons c front ih =>
    simp only [List.cons_append, splitLinesFrom]
    split
    · rw [ih, List.cons_append]
    · exact ih (c :: seen)

/-- One line, as far as it is kept, and the lines after it. -/
theorem splitLines_line {line : List α} (whole : feed ∉ line) (rest : List α) :
    ∃ kept, (∀ c ∈ kept, c ∈ line) ∧ splitLines feed ret (line ++ feed :: rest) = kept :: splitLines feed ret rest := by
  rw [splitLines, splitLinesFrom_line whole, List.append_nil, splitLinesFrom, if_pos rfl]
  refine ⟨_, fun c kept => ?_, rfl⟩
  rw [List.mem_reverse] at kept
  split at kept
  · exact List.mem_reverse.mp (List.mem_of_mem_tail kept)
  · exact List.mem_reverse.mp kept

theorem splitLines_joined {lines : List (List α)} (whole : ∀ line ∈ lines, feed ∉ line ∧ ret ∉ line) :
    splitLines feed ret (lines.flatMap (· ++ [feed])) = lines := by
  induction lines with
  | nil => rfl
  | cons line rest ih =>
    obtain ⟨⟨noFeed, noReturn⟩, later⟩ := List.forall_mem_cons.mp whole
    have last : line.reverse.head? ≠ some ret := by
      intro ends
      exact noReturn (List.mem_reverse.mp (List.mem_of_head? ends))
    rw [List.flatMap_cons, List.append_assoc, List.singleton_append, splitLines, splitLinesFrom_line noFeed,
      List.append_nil, splitLinesFrom, if_pos rfl, if_neg last, List.reverse_reverse]
    exact congrArg (line :: ·) (ih later)

end Lines

end Parlance.Text
