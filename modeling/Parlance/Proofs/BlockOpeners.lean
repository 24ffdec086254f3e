import Parlance.Prompt
import Parlance.Proofs.Token.OneLine
import Parlance.Proofs.Token.Spelling

/-! Which lines open a block. The prompt looks at the first word of a line, the grammar at its first token, and the two
agree but for a word that ends at a blank beyond ASCII: such a word is never a keyword. -/
namespace Parlance

namespace Text

variable {text after : List Char} {first : String}

theorem words_blank_head (blank : ∀ c ∈ text.head?, isBlank c = true) : words text = words text.tail := by
  cases text with
  | nil => rfl
  | cons c rest => exact words_blanks (List.forall_mem_singleton.mpr (blank c rfl)) rest

theorem words_of_allBlank (blank : allBlank text = true) : words text = [] := by
  have skipped := words_blanks (List.all_eq_true.mp blank) []
  rwa [List.append_nil] at skipped

/-- A word that nothing or a blank follows is cut off there, and that blank says whether it is bounded. -/
theorem words_first {blanks : List Char} (blank : ∀ c ∈ blanks, isBlank c = true) (tight : Tight first)
    (ended : ∀ c ∈ after.head?, isBlank c = true) :
    words (blanks ++ (first.toList ++ after)) = ⟨first, after.head?.all isAscii⟩ :: words after := by
  rw [words_blanks blank, words, wordsFrom_visible_append tight.2, List.append_nil]
  cases after with
  | nil => exact tight.close true
  | cons c rest =>
    have gap := ended c rfl
    rw [wordsFrom, if_pos gap, tight.close, words_blank_head ended]
    rfl

/-- A text that is not blank begins with blanks and a word, and a blank follows that unless the text ends. -/
theorem exists_first_word (visible : allBlank text = false) :
    ∃ blanks first after, (∀ c ∈ blanks, isBlank c = true) ∧ Tight first ∧ (∀ c ∈ after.head?, isBlank c = true) ∧
      text = blanks ++ (first.toList ++ after) := by
  have spoken : text.dropWhile isBlank ≠ [] := by
    intro empty
    rw [dropWhile_eq_nil_iff_allBlank, visible] at empty
    cases empty
  have shown := List.head_dropWhile_not isBlank spoken
  obtain ⟨c, rest, cut⟩ := List.exists_cons_of_ne_nil spoken
  simp only [cut, List.head_cons] at shown
  refine ⟨text.takeWhile isBlank, String.ofList (c :: rest.takeWhile (!isBlank ·)), rest.dropWhile (!isBlank ·), ?_, ?_,
    ?_, ?_⟩
  · exact fun d member => List.mem_takeWhile_imp member
  · rw [Tight, String.toList_ofList]
    refine ⟨List.cons_ne_nil _ _, List.forall_mem_cons.mpr ⟨shown, fun d member => ?_⟩⟩
    simpa using List.mem_takeWhile_imp member
  · intro d head
    have stops := List.head?_dropWhile_not (fun c => !isBlank c) rest
    rw [Option.mem_def.mp head] at stops
    simpa using stops
  · rw [String.toList_ofList, List.cons_append, List.takeWhile_append_dropWhile, ← cut, List.takeWhile_append_dropWhile]

end Text

namespace Text.Word

theorem kind_eq_keyword_iff {word : Word} {keyword : Keyword} :
    word.kind = .keyword keyword ↔ word.bounded = true ∧ word.text = keyword.spelling := by
  constructor
  · intro kind
    unfold Word.kind at kind
    split at kind
    · rename_i found
      cases kind
      refine ⟨?_, Keyword.spelling_of_keyword? found⟩
      by_contra loose
      rw [keyword?, if_neg loose] at found
      cases found
    · split at kind <;> cases kind
  · rintro ⟨bounded, spelling⟩
    have whole : word = Word.whole keyword.spelling := by
      obtain ⟨text, _⟩ := word
      cases bounded
      cases spelling
      rfl
    rw [whole, Keyword.whole_kind]

end Text.Word

namespace Token

/-- The first word of a line gives the first token, unless it is one of the two that take others with them. -/
theorem ofWords_first (span : Span) (word : Text.Word) (rest : List Text.Word) :
    ∃ first later, ofWords span (word :: rest) = first :: later ∧
      (first = ofWord span word ∨ word.isReserved "text" = true ∧ first.kind = .text ∨
        word.isReserved "we" = true ∧ first.kind = .keyword .weMeanWord) := by
  cases rest with
  | nil =>
    rw [ofWords]
    split
    · rename_i text
      exact ⟨_, _, rfl, .inr (.inl ⟨text, rfl⟩)⟩
    · exact ⟨_, _, rfl, .inl rfl⟩
  | cons next rest =>
    rw [ofWords]
    split
    · rename_i text
      exact ⟨_, _, rfl, .inr (.inl ⟨text, rfl⟩)⟩
    · split
      · rename_i both
        rw [Bool.and_eq_true] at both
        exact ⟨_, _, rfl, .inr (.inr ⟨both.1, rfl⟩)⟩
      · exact ⟨_, _, rfl, .inl rfl⟩

end Token

namespace Prompt

/-- The keywords of the statements that have blocks. -/
def openingKeywords : List Keyword :=
  [.ifWord, .whileWord, .byWord]

theorem openers_eq : openers = openingKeywords.map Keyword.spelling := rfl

/-- The line begins, but for blanks, with one of the words that open a block, and a blank beyond ASCII comes next. -/
def BeginsLoosely (line : List Char) : Prop :=
  ∃ blanks opener gap rest, (∀ c ∈ blanks, Text.isBlank c = true) ∧ opener ∈ openers ∧ Text.isBlank gap = true ∧
    Text.isAscii gap = false ∧ line = blanks ++ (opener.toList ++ gap :: rest)

variable {word : Text.Word}

theorem opener_not_reserved (opener : word.text ∈ openers) :
    word.isReserved "text" = false ∧ word.isReserved "we" = false := by
  rw [openers_eq] at opener
  obtain ⟨keyword, -, spelling⟩ := List.mem_map.mp opener
  have apart := keyword.spelling_reserved
  rw [spelling] at apart
  simp [Text.Word.isReserved, apart.1, apart.2.1]

theorem kind_of_loose_opener (loose : word.bounded = false) (opener : word.text ∈ openers) : word.kind = .word := by
  have unknown : word.keyword? = none := by simp [Text.Word.keyword?, loose]
  have wordy : word.text.toList.head?.any Text.isNumeric = false := by
    rw [openers_eq] at opener
    obtain ⟨keyword, -, spelling⟩ := List.mem_map.mp opener
    rw [← spelling]
    cases keyword <;> rfl
  simp [Text.Word.kind, unknown, wordy]

/-- The first token opens a block just when the first word is bounded and would open one. -/
theorem ofWords_opens (span : Span) (word : Text.Word) (rest : List Text.Word) :
    ∃ first later, Token.ofWords span (word :: rest) = first :: later ∧
      ((∃ keyword ∈ openingKeywords, first.kind = .keyword keyword) ↔ word.bounded = true ∧ word.text ∈ openers) ∧
      (word.bounded = false → first.kind = word.kind) := by
  obtain ⟨first, later, read, given⟩ := Token.ofWords_first span word rest
  refine ⟨first, later, read, ?_, ?_⟩
  · rcases given with rfl | ⟨reserved, kind⟩ | ⟨reserved, kind⟩
    · have kind (keyword : Keyword) : (Token.ofWord span word).kind = .keyword keyword ↔
          word.bounded = true ∧ word.text = keyword.spelling := Text.Word.kind_eq_keyword_iff
      simp only [kind, openers_eq, List.mem_map]
      constructor
      · rintro ⟨keyword, member, bounded, spelling⟩
        exact ⟨bounded, keyword, member, spelling.symm⟩
      · rintro ⟨bounded, keyword, member, spelling⟩
        exact ⟨keyword, member, bounded, spelling.symm⟩
    · refine iff_of_false ?_ ?_
      · simp [kind]
      · exact fun both => Bool.false_ne_true ((opener_not_reserved both.2).1.symm.trans reserved)
    · refine iff_of_false ?_ ?_
      · simp [kind, openingKeywords]
      · exact fun both => Bool.false_ne_true ((opener_not_reserved both.2).2.symm.trans reserved)
  · intro loose
    rcases given with rfl | ⟨reserved, -⟩ | ⟨reserved, -⟩
    · rfl
    · simp [Text.Word.isReserved, loose] at reserved
    · simp [Text.Word.isReserved, loose] at reserved

theorem opener_tight {opener : String} (member : opener ∈ openers) : Text.Tight opener := by
  rw [openers_eq] at member
  obtain ⟨keyword, inside, rfl⟩ := List.mem_map.mp member
  refine Keyword.spelling_tight ?_
  rintro rfl
  simp [openingKeywords] at inside

theorem beginsLoosely_iff {line : List Char} :
    BeginsLoosely line ↔ ∃ word ∈ (Text.words line).head?, word.bounded = false ∧ word.text ∈ openers := by
  constructor
  · rintro ⟨blanks, opener, gap, rest, blank, member, isGap, beyond, rfl⟩
    have ended : ∀ c ∈ (gap :: rest).head?, Text.isBlank c = true := by
      rintro c ⟨⟩
      exact isGap
    rw [Text.words_first blank (opener_tight member) ended]
    exact ⟨_, rfl, beyond, member⟩
  · rintro ⟨word, head, loose, member⟩
    have visible : Text.allBlank line = false := by
      by_contra blank
      rw [Text.words_of_allBlank (eq_true_of_ne_false blank)] at head
      cases head
    obtain ⟨blanks, first, after, blank, tight, ended, rfl⟩ := Text.exists_first_word visible
    rw [Text.words_first blank tight ended] at head
    cases head
    -- A word is not bounded only if something follows it.
    cases after with
    | nil => cases loose
    | cons gap rest => exact ⟨blanks, first, gap, rest, blank, member, ended gap rfl, loose, rfl⟩

variable {name line : String} {tokens : List Token}

/-- On every line that can be read, the prompt waits for a block just when the first token opens one, except where a
blank beyond ASCII follows the opening word. There the prompt waits and the token is a plain word. -/
theorem opensBlock_first_token (whole : '\n' ∉ line.toList)
    (lexed : (Source.ofText name line).tokens.result = .ok tokens) :
    ∃ first, tokens.find? (·.kind != .beginIndent) = some first ∧
      ((opensBlock line = true ↔ ∃ keyword ∈ openingKeywords, first.kind = .keyword keyword) ↔
        ¬ BeginsLoosely line.toList) ∧
      (BeginsLoosely line.toList → opensBlock line = true ∧ first.kind = .word) := by
  cases visible : Text.allBlank line.toList with
  | true =>
    obtain ⟨stop, rfl⟩ := Source.tokens_blank_line whole visible lexed
    have wordless := Text.words_of_allBlank visible
    have tightly : ¬ BeginsLoosely line.toList := by simp [beginsLoosely_iff, wordless]
    refine ⟨.eof stop, rfl, ?_, fun loosely => absurd loosely tightly⟩
    simp [opensBlock, wordless, tightly, Token.eof]
  | false =>
    obtain ⟨word, rest, cut⟩ := List.exists_cons_of_ne_nil (Text.words_ne_nil visible)
    obtain ⟨first, later, read, opens, plain⟩ := ofWords_opens ⟨name, 1⟩ word rest
    have found := Source.find?_visible_line whole visible lexed
    rw [cut, read, List.head?_cons] at found
    have waits : opensBlock line = true ↔ word.text ∈ openers := by simp [opensBlock, cut]
    have loosely : BeginsLoosely line.toList ↔ word.bounded = false ∧ word.text ∈ openers := by
      simp [beginsLoosely_iff, cut]
    refine ⟨first, found, ?_, ?_⟩
    · rw [waits, opens, loosely]
      cases word.bounded <;> simp
    · rw [loosely]
      rintro ⟨loose, member⟩
      exact ⟨waits.mpr member, (plain loose).trans (kind_of_loose_opener loose member)⟩

/-- A line indented by a tab, with a form feed after its keyword. -/
theorem opensBlock_first_token_form_feed :
    (Source.ofText "<line>" "\tif\x0cx").tokens.result =
        .ok [.beginIndent ⟨"<line>", 1⟩, ⟨.keyword .ifWord, "if", ⟨"<line>", 1⟩⟩, ⟨.word, "x", ⟨"<line>", 1⟩⟩,
          .newline ⟨"<line>", 1⟩, .endIndent ⟨"<line>", 1⟩, .eof ⟨"<line>", 1⟩] ∧
      opensBlock "\tif\x0cx" = true ∧ ¬ BeginsLoosely "\tif\x0cx".toList := by
  have lexed : (Source.ofText "<line>" "\tif\x0cx").tokens.result =
      .ok [.beginIndent ⟨"<line>", 1⟩, ⟨.keyword .ifWord, "if", ⟨"<line>", 1⟩⟩, ⟨.word, "x", ⟨"<line>", 1⟩⟩,
        .newline ⟨"<line>", 1⟩, .endIndent ⟨"<line>", 1⟩, .eof ⟨"<line>", 1⟩] := by
    rfl
  obtain ⟨first, found, agrees, -⟩ := opensBlock_first_token (by decide) lexed
  cases found
  have waits : opensBlock "\tif\x0cx" = true := by decide +kernel
  exact ⟨lexed, waits, agrees.mp (iff_of_true waits ⟨.ifWord, List.mem_cons_self, rfl⟩)⟩

/-- A no-break space after `if`: the prompt waits for a block, and there is only a plain word to begin it. -/
theorem opensBlock_without_opening_token :
    '\n' ∉ "if\u00A0x".toList ∧ ∃ tokens, (Source.ofText "<line>" "if\u00A0x").tokens.result = .ok tokens ∧
      ¬ (opensBlock "if\u00A0x" = true ↔
        ∃ first, tokens.find? (·.kind != .beginIndent) = some first ∧
          ∃ keyword ∈ openingKeywords, first.kind = .keyword keyword) := by
  refine ⟨by decide, [⟨.word, "if", ⟨"<line>", 1⟩⟩, ⟨.word, "x", ⟨"<line>", 1⟩⟩, .newline ⟨"<line>", 1⟩,
    .eof ⟨"<line>", 1⟩], rfl, fun agrees => ?_⟩
  have waits : opensBlock "if\u00A0x" = true := by decide +kernel
  obtain ⟨first, found, keyword, -, kind⟩ := agrees.mp waits
  cases found
  cases kind

end Prompt
end Parlance
