import Parlance.Proofs.Text.Segments
import Parlance.Proofs.Text.Words
import Parlance.Proofs.Token.Shape

/-! The tokens of a single line: what its words give, between the change of level and the end of the line. -/
namespace Parlance

theorem RawLine.ofText_line {line : String} (free : '\n' ∉ line.toList) (spoken : line.toList ≠ []) :
    ofText line = [some line] := by
  rw [ofText, Text.splitLines_segments, Text.segments_last free spoken, List.map_singleton, Text.strip_last free,
    List.map_singleton, String.ofList_toList]

namespace Source

variable {name line : String} {tokens : List Token}

theorem rows_blank_line (name : String) (free : '\n' ∉ line.toList) (blank : Text.allBlank line.toList = true) :
    (ofText name line).rows = [] := by
  by_cases spoken : line.toList = []
  · rw [String.toList_eq_nil_iff.mp spoken]
    rfl
  · have only : (ofText name line).lines = [some line] := RawLine.ofText_line free spoken
    rw [rows, only, Row.ofLines_cons, Row.ofLine?_blank 1 blank]
    rfl

theorem lines_visible_line (name : String) (free : '\n' ∉ line.toList) (visible : Text.allBlank line.toList = false) :
    (ofText name line).lines = [some line] := by
  refine RawLine.ofText_line free fun empty => ?_
  rw [empty] at visible
  cases visible

theorem rows_visible_line (name : String) (free : '\n' ∉ line.toList) (visible : Text.allBlank line.toList = false) :
    (ofText name line).rows = [⟨1, line.toList⟩] := by
  rw [rows, lines_visible_line name free visible, Row.ofLines_cons, Row.ofLine?_visible 1 visible]
  rfl

/-- A blank line has no token but the end of the input. -/
theorem tokens_blank_line (free : '\n' ∉ line.toList) (blank : Text.allBlank line.toList = true)
    (lexed : (ofText name line).tokens.result = .ok tokens) : ∃ stop, tokens = [Token.eof stop] := by
  have read := (tokens_stream lexed).1
  rw [groups, rows_blank_line name free blank] at read
  exact ⟨_, read⟩

/-- Any other line gives a step in at most, then its words, and then ends. -/
theorem tokens_visible_line (free : '\n' ∉ line.toList) (visible : Text.allBlank line.toList = false)
    (lexed : (ofText name line).tokens.result = .ok tokens) :
    ∃ level ends, tokens =
      Group.opening ⟨name, 1⟩ 0 level ++ (Token.ofWords ⟨name, 1⟩ (Text.words line.toList) ++ ends) := by
  have read := (tokens_stream lexed).1
  rw [groups, rows_visible_line name free visible, List.map_singleton, Group.stream, Group.tokens, List.append_assoc,
    List.append_assoc] at read
  exact ⟨_, _, read⟩

/-- The step in, if there is one, comes before the first word and nothing else does. -/
theorem find?_visible_line (free : '\n' ∉ line.toList) (visible : Text.allBlank line.toList = false)
    (lexed : (ofText name line).tokens.result = .ok tokens) :
    tokens.find? (·.kind != .beginIndent) = (Token.ofWords ⟨name, 1⟩ (Text.words line.toList)).head? := by
  obtain ⟨level, ends, rfl⟩ := tokens_visible_line free visible lexed
  obtain ⟨first, later, words⟩ :=
    List.exists_cons_of_ne_nil (Token.ofWords_ne_nil ⟨name, 1⟩ (Text.words_ne_nil visible))
  have plain := (Token.ofWords_plain ⟨name, 1⟩ (Text.words line.toList) first (words ▸ List.mem_cons_self)).1
  have starts : (first.kind != .beginIndent) = true := bne_iff_ne.mpr (Kind.ne_of_isLayout plain rfl)
  rw [words, List.cons_append, List.head?_cons]
  unfold Group.opening
  split
  · exact (List.find?_cons_of_neg (by simp [Token.beginIndent])).trans (List.find?_cons_of_pos starts)
  · rw [Nat.zero_sub, List.replicate_zero, List.nil_append]
    exact List.find?_cons_of_pos starts

/-- A line that is not indented can always be read. -/
theorem tokens_flat_line (name : String) (free : '\n' ∉ line.toList) (visible : Text.allBlank line.toList = false)
    (flat : (Indent.leading line.toList).isZero = true) :
    (ofText name line).tokens.result =
      .ok (Token.ofWords ⟨name, 1⟩ (Text.words line.toList) ++ [Token.newline ⟨name, 1⟩, Token.eof ⟨name, 1⟩]) := by
  have only := lines_visible_line name free visible
  have row := rows_visible_line name free visible
  have unitless : (ofText name line).unit? = none := by
    rw [unit?, row]
    exact Row.unit?_cons_zero [] flat
  have readable : ∀ raw ∈ (ofText name line).lines, raw.isSome := by
    rw [only]
    exact List.forall_mem_singleton.mpr rfl
  rw [tokens_result _ readable, groups, row, only, unitless]
  simp [Row.firstOffence?, Row.offence?, Row.group, Row.level, Indent.level, Row.words, Row.span, Group.stream,
    Group.tokens, Group.opening, ofText]

/-- A word without blanks is a line by itself. -/
theorem tokens_word (name : String) (tight : Text.Tight line) :
    (ofText name line).tokens.result =
      .ok (Token.ofWords ⟨name, 1⟩ [Text.Word.whole line] ++ [Token.newline ⟨name, 1⟩, Token.eof ⟨name, 1⟩]) := by
  obtain ⟨spoken, visible⟩ := tight
  have free : '\n' ∉ line.toList := fun feed => Bool.false_ne_true ((visible _ feed).symm.trans rfl)
  obtain ⟨c, rest, begins⟩ := List.exists_cons_of_ne_nil spoken
  have shown : Text.isBlank c = false := visible c (begins ▸ List.mem_cons_self)
  have flush : Indent.isIndentation c = false := by
    cases indents : Indent.isIndentation c with
    | false => rfl
    | true => exact absurd (shown.symm.trans (Text.isBlank_of_isIndentation indents)) Bool.false_ne_true
  rw [tokens_flat_line name free, Text.Tight.words ⟨spoken, visible⟩]
  · simp [begins, Text.allBlank, shown]
  · simp [begins, Indent.leading, Indent.isZero, flush]

end Source
end Parlance
