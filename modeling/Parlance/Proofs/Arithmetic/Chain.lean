import Parlance.Proofs.Node.Extension
import Parlance.Proofs.Node.Spell
import Parlance.Proofs.Node.Yields

/-! Chains of arithmetic: numbers with operators between them, on one line. A chain is a calculation, for it is parted at
the first occurrence of the first operator, in the operators' order, that occurs in it, and so are both its sides. The line
is read as a program of one statement, the calculation. -/
namespace Parlance

/-- The operators that make numbers of numbers. -/
inductive Arithmetic where
  | multiply | divides | plus | minus
deriving DecidableEq, Repr

namespace Arithmetic

/-- The order in which a chain is parted at them. -/
def all : List Arithmetic :=
  [.multiply, .divides, .plus, .minus]

def operator : Arithmetic → Operator
  | .multiply => .multiply
  | .divides => .divides
  | .plus => .plus
  | .minus => .minus

/-- The result among the integers. A quotient is cut off toward zero. -/
def exact : Arithmetic → Int → Int → Int
  | .multiply, a, b => a * b
  | .divides, a, b => a.tdiv b
  | .plus, a, b => a + b
  | .minus, a, b => a - b

theorem mem_all (arithmetic : Arithmetic) : arithmetic ∈ all := by
  cases arithmetic <;> decide

theorem spelling_injective {first second : Arithmetic} (same : first.operator.spelling = second.operator.spelling) :
    first = second := by
  cases first <;> cases second <;> first | rfl | exact absurd same (by decide)

end Arithmetic

/-- A decimal literal that is in the range of numbers. -/
structure Numeral where
  digits : List Char
  nonempty : digits ≠ []
  decimal : digits.all Char.isDigit = true
  fits : Nat.ofDigitChars 10 digits 0 < 0x8000000000000000

namespace Numeral

def value (numeral : Numeral) : Nat :=
  Nat.ofDigitChars 10 numeral.digits 0

def text (numeral : Numeral) : String :=
  String.ofList numeral.digits

def number (numeral : Numeral) : Number :=
  Int64.ofInt numeral.value

theorem toInt_number (numeral : Numeral) : numeral.number.toInt = numeral.value := by
  have small : numeral.value < 0x8000000000000000 := numeral.fits
  exact Int64.toInt_ofInt_of_le (by omega) (by omega)

theorem begins (numeral : Numeral) : ∃ c rest, numeral.text.toList = c :: rest ∧ c.isDigit = true := by
  obtain ⟨c, rest, same⟩ := List.exists_cons_of_ne_nil numeral.nonempty
  have digits := numeral.decimal
  rw [same, List.all_cons, Bool.and_eq_true] at digits
  exact ⟨c, rest, by rw [text, String.toList_ofList, same], digits.1⟩

theorem read?_text (numeral : Numeral) : Number.read? numeral.text.toList = some numeral.number := by
  obtain ⟨c, rest, same, digit⟩ := numeral.begins
  have natural : Number.natural? numeral.text.toList = some numeral.value := by
    rw [text, String.toList_ofList, Number.natural?, if_pos ⟨numeral.nonempty, numeral.decimal⟩,
      ← Nat.ofDigitChars_eq_foldl]
    rfl
  have whole := Number.ofInt?_toInt numeral.number
  rw [numeral.toInt_number] at whole
  rw [same, Number.read?_unsigned digit, ← same, natural]
  exact whole

end Numeral

/-- A number, or a number, an operator and a chain. -/
inductive Arithmetic.Chain where
  | last (numeral : Numeral)
  | link (numeral : Numeral) (arithmetic : Arithmetic) (rest : Chain)

/-- A number, or an operator on two operands. -/
inductive Calculation where
  | number (numeral : Numeral)
  | operation (arithmetic : Arithmetic) (left right : Calculation)

namespace Arithmetic.Chain

def first : Chain → Numeral
  | .last numeral | .link numeral _ _ => numeral

/-- How many operators there are. -/
def length : Chain → Nat
  | .last _ => 0
  | .link _ _ rest => rest.length + 1

def words : Chain → List String
  | .last numeral => [numeral.text]
  | .link numeral arithmetic rest => numeral.text :: arithmetic.operator.spelling :: rest.words

/-- What stands before the first occurrence of an operator, and what stands after it. -/
def cut? (wanted : Arithmetic) : Chain → Option (Chain × Chain)
  | .last _ => none
  | .link numeral arithmetic rest =>
    if arithmetic = wanted then some (.last numeral, rest)
    else (rest.cut? wanted).map fun sides => (.link numeral arithmetic sides.1, sides.2)

def split? (chain : Chain) : Option (Arithmetic × Chain × Chain) :=
  Arithmetic.all.findSome? fun wanted => (chain.cut? wanted).map (wanted, ·)

theorem cut?_length {wanted : Arithmetic} {chain before after : Chain} (cut : chain.cut? wanted = some (before, after)) :
    before.length + after.length + 1 = chain.length := by
  induction chain generalizing before with
  | last numeral => cases cut
  | link numeral arithmetic rest ih =>
    rw [cut?] at cut
    split at cut
    · cases cut
      simp [length]
    · obtain ⟨⟨inner, later⟩, found, same⟩ := Option.map_eq_some_iff.mp cut
      cases same
      have lengths := ih found
      simp only [length] at lengths ⊢
      omega

theorem split?_length {chain before after : Chain} {arithmetic : Arithmetic}
    (parted : chain.split? = some (arithmetic, before, after)) : before.length + after.length + 1 = chain.length := by
  obtain ⟨wanted, _, found⟩ := List.exists_of_findSome?_eq_some parted
  obtain ⟨sides, cut, same⟩ := Option.map_eq_some_iff.mp found
  cases same
  exact cut?_length cut

theorem split?_link (numeral : Numeral) (arithmetic : Arithmetic) (rest : Chain) :
    (link numeral arithmetic rest).split? ≠ none := by
  intro whole
  have uncut := List.findSome?_eq_none_iff.mp whole arithmetic arithmetic.mem_all
  simp [cut?] at uncut

-- The equation's name serves the termination argument.
set_option linter.unusedVariables false in
/-- The calculation that a chain stands for. -/
def tree (chain : Chain) : Calculation :=
  match parted : chain.split? with
  | none => .number chain.first
  | some (arithmetic, before, after) => .operation arithmetic before.tree after.tree
termination_by chain.length
decreasing_by
  all_goals
    have lengths := split?_length parted
    omega

end Arithmetic.Chain

/-- The tree of a calculation in a program, all of it on one line. -/
def Calculation.node (line : Nat) : Calculation → Node
  | .number numeral => .literal (.number numeral.number) line
  | .operation arithmetic left right =>
    .call (.identifier arithmetic.operator.procedureName line) [left.node line, right.node line] line

/-! ### Words -/

namespace Arithmetic.Chain

def tokens (span : Span) : Chain → List Token
  | .last numeral => [⟨.number, numeral.text, span⟩]
  | .link numeral arithmetic rest =>
    ⟨.number, numeral.text, span⟩ :: ⟨.word, arithmetic.operator.spelling, span⟩ :: rest.tokens span

theorem tokens_begin (span : Span) (chain : Chain) :
    ∃ rest, chain.tokens span = ⟨.number, chain.first.text, span⟩ :: rest := by
  cases chain <;> exact ⟨_, rfl⟩

theorem tokens_kind (span : Span) (chain : Chain) :
    ∀ token ∈ chain.tokens span, token.kind = .number ∨ token.kind = .word := by
  induction chain with
  | last numeral => simp [tokens]
  | link numeral arithmetic rest ih =>
    exact List.forall_mem_cons.mpr ⟨.inl rfl, List.forall_mem_cons.mpr ⟨.inr rfl, ih⟩⟩

end Arithmetic.Chain

theorem Text.Word.kind_of_spelling {word : Word} (plain : ∀ keyword : Keyword, word.text ≠ keyword.spelling) :
    word.kind = if word.text.toList.head?.any isNumeric then .number else .word := by
  unfold Word.kind
  split
  · rename_i keyword found
    exact absurd (Keyword.spelling_of_keyword? found) (plain keyword)
  · rfl

theorem Numeral.text_plain (numeral : Numeral) {text : String} (other : text.toList.head?.any Char.isDigit = false) :
    numeral.text ≠ text := by
  rintro rfl
  obtain ⟨c, rest, same, digit⟩ := numeral.begins
  rw [same] at other
  exact absurd digit (Bool.eq_false_iff.mp other)

theorem Numeral.kind (numeral : Numeral) {word : Text.Word} (same : word.text = numeral.text) : word.kind = .number := by
  obtain ⟨c, rest, begins, digit⟩ := numeral.begins
  rw [Text.Word.kind_of_spelling fun keyword => same ▸ numeral.text_plain (by cases keyword <;> decide), same, begins]
  exact if_pos (Text.isNumeric_of_isDigit digit)

theorem Arithmetic.kind (arithmetic : Arithmetic) {word : Text.Word}
    (same : word.text = arithmetic.operator.spelling) : word.kind = .word := by
  rw [Text.Word.kind_of_spelling fun keyword => by rw [same]; cases arithmetic <;> cases keyword <;> decide, same]
  cases arithmetic <;> decide

/-- A word that neither begins a text nor may begin `we mean` is a token of its own. -/
theorem Token.ofWords_cons (span : Span) {word : Text.Word} (words : List Text.Word) (apart : word.text ≠ "text")
    (alone : word.text ≠ "we") : ofWords span (word :: words) = ofWord span word :: ofWords span words := by
  cases words with
  | nil => simp [ofWords, Text.Word.isReserved, apart]
  | cons next rest => simp [ofWords, Text.Word.isReserved, apart, alone]

/-- However many blanks stand between the words, the tokens are the chain's. -/
theorem Arithmetic.Chain.ofWords_tokens (span : Span) (chain : Chain) {words : List Text.Word}
    (spelled : words.map Text.Word.text = chain.words) : Token.ofWords span words = chain.tokens span := by
  have numbered (numeral : Numeral) {word : Text.Word} (rest : List Text.Word) (same : word.text = numeral.text) :
      Token.ofWords span (word :: rest) = ⟨.number, numeral.text, span⟩ :: Token.ofWords span rest := by
    rw [Token.ofWords_cons span rest (same ▸ numeral.text_plain (by decide)) (same ▸ numeral.text_plain (by decide)),
      Token.ofWord, numeral.kind same, same]
  induction chain generalizing words with
  | last numeral =>
    obtain ⟨word, rfl, same⟩ := List.map_eq_singleton_iff.mp spelled
    exact numbered numeral [] same
  | link numeral arithmetic rest ih =>
    obtain ⟨word, others, rfl, same, spelled⟩ := List.map_eq_cons_iff.mp spelled
    obtain ⟨sign, others, rfl, operates, spelled⟩ := List.map_eq_cons_iff.mp spelled
    have apart : sign.text ≠ "text" ∧ sign.text ≠ "we" := by
      rw [operates]
      cases arithmetic <;> decide
    rw [numbered numeral _ same, Token.ofWords_cons span others apart.1 apart.2, Token.ofWord, arithmetic.kind operates,
      operates, ih spelled]
    rfl

/-! ### Reading -/

namespace Arithmetic.Chain

variable (span : Span)

theorem at?_tokens (wanted : Arithmetic) (chain : Chain) :
    Split.atWord? wanted.operator.spelling (chain.tokens span) = (chain.cut? wanted).map fun sides =>
      ⟨sides.1.tokens span, ⟨.word, wanted.operator.spelling, span⟩, sides.2.tokens span⟩ := by
  unfold Split.atWord?
  induction chain with
  | last numeral => rfl
  | link numeral arithmetic rest ih =>
    rw [tokens, cut?, Split.at?, if_neg (by simp [Token.isWord]), Split.at?]
    by_cases same : arithmetic = wanted
    · rw [if_pos (by simp [Token.isWord, same]), if_pos same, same]
      rfl
    · have apart : arithmetic.operator.spelling ≠ wanted.operator.spelling :=
        fun spelled => same (Arithmetic.spelling_injective spelled)
      rw [if_neg (by simpa [Token.isWord] using apart), if_neg same, ih]
      simp [tokens, Function.comp_def]

theorem at?_compared {operator : Operator} (other : ∀ arithmetic : Arithmetic, arithmetic.operator ≠ operator)
    (chain : Chain) : Split.atWord? operator.spelling (chain.tokens span) = none := by
  have apart (arithmetic : Arithmetic) : arithmetic.operator.spelling ≠ operator.spelling := by
    have different := other arithmetic
    cases arithmetic <;> cases operator <;> first | decide | exact absurd rfl different
  rw [Split.atWord?, Split.at?_eq_none_iff]
  induction chain with
  | last numeral => simp [tokens, Token.isWord]
  | link numeral arithmetic rest ih =>
    refine List.forall_mem_cons.mpr ⟨rfl, List.forall_mem_cons.mpr ⟨?_, ih⟩⟩
    simpa [Token.isWord] using apart arithmetic

/-- Comparisons come first in the order of the operators, but a chain has none. -/
theorem atOperator?_tokens (chain : Chain) :
    Split.atOperator? (chain.tokens span) = chain.split?.map fun parted =>
      (parted.1.operator,
        ⟨parted.2.1.tokens span, ⟨.word, parted.1.operator.spelling, span⟩, parted.2.2.tokens span⟩) := by
  have order : Operator.all = [.equals, .notEquals, .smallerThan, .biggerThan] ++ Arithmetic.all.map Arithmetic.operator :=
    rfl
  have compared : [Operator.equals, .notEquals, .smallerThan, .biggerThan].findSome?
      (fun operator => (Split.atWord? operator.spelling (chain.tokens span)).map (operator, ·)) = none := by
    refine List.findSome?_eq_none_iff.mpr fun operator member => Option.map_eq_none_iff.mpr ?_
    refine at?_compared span (fun arithmetic same => ?_) chain
    subst same
    cases arithmetic <;> exact absurd member (by decide)
  rw [Split.atOperator?, order, List.findSome?_append, compared, Option.none_or, List.findSome?_map, split?,
    List.map_findSome?]
  refine congrArg (List.findSome? · _) (funext fun arithmetic => ?_)
  rw [Function.comp_apply, Function.comp_apply, at?_tokens]
  cases chain.cut? arithmetic <;> rfl

theorem atKind?_tokens (chain : Chain) : Split.atKind? (.keyword .ofWord) (chain.tokens span) = none := by
  refine Split.atKind?_eq_none_iff.mpr fun token member => ?_
  rcases chain.tokens_kind span token member with kind | kind <;> simp [kind]

theorem isEmpty_tokens (chain : Chain) : (chain.tokens span).isEmpty = false := by
  obtain ⟨rest, same⟩ := chain.tokens_begin span
  rw [same]
  rfl

/-- The words of a chain are read as its calculation. -/
theorem read_tokens (chain : Chain) (anchor : Span) :
    (Expression.read (chain.tokens span) anchor).result = .ok (chain.tree.node span.line) := by
  induction size : chain.length using Nat.strongRecOn generalizing chain anchor with
  | _ length ih =>
    subst size
    have noOf := chain.atKind?_tokens span
    have cut := chain.atOperator?_tokens span
    have filled (other : Chain) := other.isEmpty_tokens span
    obtain ⟨rest, begins⟩ := chain.tokens_begin span
    rw [tree]
    split
    · rename_i whole
      cases chain with
      | link numeral arithmetic rest => exact absurd whole (split?_link numeral arithmetic rest)
      | last numeral =>
        rw [whole] at cut
        refine (Expression.result_whole anchor noOf cut).trans ?_
        simp [Token.isKeyword, Expression.readAtom, numeral.read?_text, first, Calculation.node]
    · rename_i arithmetic before after parted
      have lengths := split?_length parted
      rw [parted, begins] at cut
      rw [begins] at noOf
      have left := ih before.length (by omega) before span rfl
      have right := ih after.length (by omega) after anchor rfl
      rw [begins, Expression.result_operation anchor noOf cut]
      simp [Expression.expect, filled, left, right, Except.bind, Calculation.node]

/-- A chain on a line of its own is a program of one statement. -/
theorem readStatements_tokens (chain : Chain) (stop : Span) :
    (Program.readStatements (chain.tokens span ++ Token.newline span :: [Token.eof stop])).result =
      .ok [chain.tree.node span.line] := by
  have read := chain.read_tokens span span
  obtain ⟨rest, begins⟩ := chain.tokens_begin span
  have plain : Split.atKind? (.keyword .isWord) (chain.tokens span) = none := by
    refine Split.atKind?_eq_none_iff.mpr fun token member => ?_
    rcases chain.tokens_kind span token member with kind | kind <;> simp [kind]
  have spoken : ∀ token ∈ chain.tokens span, token.kind.isLayout = false := by
    intro token member
    rcases chain.tokens_kind span token member with kind | kind <;> simp [kind, Kind.isLayout]
  rw [Program.readStatements_line span [Token.eof stop] (by simp [begins]) spoken]
  have statement : (Statement.read ⟨chain.tokens span, span⟩ [Token.eof stop]).Succeeds
      (· = chain.tree.node span.line) [Token.eof stop] := by
    rw [begins] at plain read ⊢
    rw [Statement.read]
    refine Parsed.succeeds_tell (Parsed.succeeds_ofTraced ⟨_, ?_, rfl⟩)
    rw [Statement.readPlain, plain]
    exact read
  have ended := Program.readStatements_stop (Token.eof stop) rfl []
  have whole : ((Statement.read ⟨chain.tokens span, span⟩ [Token.eof stop]).andThen fun remaining _ node =>
      (Program.readStatements remaining).map (node :: ·)).Succeeds (· = [chain.tree.node span.line])
      (Program.readStatements [Token.eof stop]).rest :=
    Parsed.succeeds_andThen statement fun node _ same => Parsed.succeeds_map ⟨[], ended, same ▸ rfl, rfl⟩
  obtain ⟨nodes, result, rfl, _⟩ := whole
  exact result

end Arithmetic.Chain

/-- A line that is not indented has the tokens of its words, and the end of the source follows. -/
theorem Source.tokens_single {source : Source} {line : String} (single : source.lines = [some line])
    (flush : (Indent.leading line.toList).isZero = true) (visible : Text.allBlank line.toList = false) :
    source.tokens.result = .ok (Token.ofWords ⟨source.name, 1⟩ (Text.words line.toList) ++
      Token.newline ⟨source.name, 1⟩ :: [Token.eof ⟨source.name, 1⟩]) := by
  have rows : source.rows = [⟨1, line.toList⟩] := by
    rw [rows, single, Row.ofLines_cons, Row.ofLine?_visible 1 visible]
    rfl
  have zero : (Row.mk 1 line.toList).indent.isZero = true := flush
  have level : (Row.mk 1 line.toList).level source.unit? = 0 := Indent.level_of_isZero source.unit? zero
  have readable : ∀ line ∈ source.lines, line.isSome := by simp [single]
  have empty := (Indent.isZero_iff _).mp zero
  have fine : Row.WellIndented source.unit? 0 source.rows := by
    rw [rows]
    refine ⟨?_, ?_, ?_, ?_⟩ <;> simp_all [Indent.amount]
  rw [source.tokens_of_wellIndented readable fine, groups, rows, single]
  simp [Group.stream, Group.tokens, Row.group, level, Group.opening_same, Row.words, Row.span]

/-- However its words are spaced, a line that is not indented and holds a chain is a program of one statement. -/
theorem Source.program_chain {source : Source} {line : String} {chain : Arithmetic.Chain} (single : source.lines = [some line])
    (flush : (Indent.leading line.toList).isZero = true) (spelled : Text.wordsOf line = chain.words) :
    source.program.result = .ok [chain.tree.node 1] := by
  have visible : Text.allBlank line.toList = false := by
    apply Bool.eq_false_iff.mpr
    intro blank
    have none := Text.words_blanks (List.all_eq_true.mp blank) []
    rw [List.append_nil] at none
    rw [Text.wordsOf, none] at spelled
    cases chain <;> cases spelled
  have lexed := source.tokens_single single flush visible
  rw [chain.ofWords_tokens _ spelled] at lexed
  rw [Source.program_result lexed, Arithmetic.Chain.readStatements_tokens]
  rfl

end Parlance
