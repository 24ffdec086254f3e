import Parlance.Proofs.Node.Spends
import Parlance.Proofs.Unreached

/-! Reading and the end of the input, whatever tokens are given: ends of lines and of the input anywhere, indentation that
nothing closes. The calls of the readers go down, none of them reaches beyond the first end of the input, and each that a
keyword leads has a line to take it from. -/
namespace Parlance

open Relation (ReflTransGen)

namespace Reading

/-- The tokens that the reader is given. -/
def tokens : Reading → List Token
  | .program tokens | .statement _ tokens | .conditional _ _ _ tokens | .loop _ _ _ tokens | .definition _ _ _ tokens
  | .block _ tokens | .rest _ tokens => tokens

/-- The line that the reader begins with, if that has been taken already. -/
def line? : Reading → Option Sentence
  | .statement sentence _ => some sentence
  | .conditional keyword words stop _ | .loop keyword words stop _ | .definition keyword words stop _ =>
    some ⟨keyword :: words, stop⟩
  | .program _ | .block .. | .rest .. => none

/-- What goes down with each call: the tokens become fewer, or they stay and the reader is further in. -/
def weight : Reading → Nat
  | .program tokens | .rest _ tokens => 4 * tokens.length
  | .block _ tokens => 4 * tokens.length + 1
  | .conditional _ _ _ tokens | .loop _ _ _ tokens | .definition _ _ _ tokens => 4 * tokens.length + 2
  | .statement _ tokens => 4 * tokens.length + 3

variable {caller reading : Reading} {stream : List Token}

theorem Calls.lighter (calls : caller.Calls reading) : reading.weight < caller.weight := by
  cases calls with
  | statement next | nested _ next =>
    have shorter := Sentence.next?_shorter next
    simp only [weight]
    omega
  | @further _ after sentence _ next | @onward _ _ _ after sentence _ _ next =>
    have shorter := Sentence.next?_shorter next
    have left := (Statement.read sentence after).within.length_le
    simp only [weight]
    omega
  | conditional | loop | definition | thenBlock | body | procedure => exact Nat.lt_succ_self _
  | @elseBlock _ _ _ tokens _ stop _ _ _ led | @otif _ _ _ tokens _ stop _ _ _ led
  | @otherwise _ _ _ tokens _ stop _ _ _ led =>
    have shorter := Sentence.led?_shorter led
    have left := (Statement.readBlock stop tokens).within.length_le
    simp only [weight]
    omega
  | @inside anchor tokens =>
    have left := (Token.consume .beginIndent anchor tokens).within.length_le
    simp only [weight]
    omega

theorem calls_wellFounded : WellFounded fun reading caller : Reading => caller.Calls reading :=
  Subrelation.wf Calls.lighter (measure weight).wf

/-- The reader stands in the stream before any end of the input, and so does the line it begins with. -/
structure Placed (stream : List Token) (reading : Reading) : Prop where
  passes : Passes stream reading.tokens
  line : ∀ sentence, reading.line? = some sentence →
    ∃ tokens, Passes stream tokens ∧ Sentence.next? tokens = some (sentence, reading.tokens)

theorem line?_of_led? {keyword : Token} {words : List Token} (led : reading.led? = some (keyword, words)) :
    ∃ stop, reading.line? = some ⟨keyword :: words, stop⟩ := by
  cases reading with
  | conditional | loop | definition =>
    cases led
    exact ⟨_, rfl⟩
  | program | statement | block | rest => cases led

theorem Placed.next {tokens : List Token} {sentence : Sentence} (passes : Passes stream tokens)
    (next : Sentence.next? tokens = some (sentence, reading.tokens)) (line : reading.line? = some sentence) :
    reading.Placed stream := by
  refine ⟨passes.trans (Sentence.next?_passes next), ?_⟩
  intro other same
  cases line.symm.trans same
  exact ⟨tokens, passes, next⟩

theorem Placed.unlined (passes : Passes stream reading.tokens) (noLine : reading.line? = none) :
    reading.Placed stream := by
  refine ⟨passes, ?_⟩
  intro sentence given
  cases noLine.symm.trans given

/-- What a reader leaves is as far from the end as what it was given. -/
theorem read_passes (sentence : Sentence) (tokens : List Token) : Passes tokens (Statement.read sentence tokens).rest :=
  (Statement.read_spends sentence (Statement.frugal _)).passes

theorem block_passes (anchor : Span) (tokens : List Token) : Passes tokens (Statement.readBlock anchor tokens).rest :=
  (Statement.readBlock_spends anchor (Statement.frugal _)).passes

theorem Placed.call (placed : caller.Placed stream) (calls : caller.Calls reading) : reading.Placed stream := by
  have passes := placed.passes
  cases calls with
  | statement next | nested _ next => exact .next passes next rfl
  | further next | onward _ next =>
    exact .unlined ((passes.trans (Sentence.next?_passes next)).trans (read_passes _ _)) rfl
  | @conditional sentence keyword words tokens spelled | @loop sentence keyword words tokens spelled
  | @definition sentence keyword words tokens spelled =>
    obtain ⟨before, passed, next⟩ := placed.line sentence rfl
    have same : sentence = ⟨keyword :: words, sentence.stop⟩ := by rw [← spelled]
    exact .next passed next (congrArg some same.symm)
  | thenBlock | body | procedure => exact .unlined passes rfl
  | @elseBlock _ _ _ _ _ stop _ _ _ led | @otherwise _ _ _ _ _ stop _ _ _ led =>
    have before := passes.trans (block_passes stop _)
    exact .unlined (before.trans (Sentence.next?_passes (Sentence.led?_next? led))) rfl
  | otif read led => exact .next (passes.trans (block_passes _ _)) (Sentence.led?_next? led) rfl
  | @inside anchor tokens =>
    have opening := Token.consume_spends .beginIndent anchor tokens Kind.noConfusion
    exact .unlined (passes.trans opening.passes) rfl

theorem placed (tokens : List Token) (reached : ReflTransGen Calls (.program tokens) reading) :
    reading.Placed tokens := by
  induction reached with
  | refl => exact .unlined (.refl tokens) rfl
  | tail _ calls ih => exact ih.call calls

end Reading

theorem reading_stays_before_end (tokens : List Token) :
    -- The calls of the readers come to an end. The log tells of each statement and each expression as its reading begins;
    -- the statements are those called for, and there are no more of either than the words and tokens taken pay for.
    (WellFounded fun reading caller : Reading => caller.Calls reading) ∧
      (∀ first, .statement first ∈ (Program.read tokens).events → Reading.Heard (.program tokens) first) ∧
      (∀ words anchor, (Expression.read words anchor).events.length ≤ words.length) ∧
      (Program.read tokens).events.length + 2 * (Program.read tokens).rest.length ≤ 2 * tokens.length + 1 ∧
    -- No end of the input is taken, neither at the end nor on the way.
    Passes tokens (Program.read tokens).rest ∧
      (∀ reading, ReflTransGen Reading.Calls (.program tokens) reading → Passes tokens reading.tokens) ∧
    -- A program leaves all that begins with the first end of the input, and an error leaves at least that.
    (∀ program, (Program.read tokens).result = .ok program → (Program.read tokens).rest = Token.sinceEnd tokens) ∧
      (∀ error, (Program.read tokens).result = .error error →
        (Program.read tokens).rest <:+ tokens ∧ Token.sinceEnd tokens <:+ (Program.read tokens).rest) ∧
    -- A reader that a keyword leads has that from a line, and a cut lies within the words that are cut.
    (∀ reading keyword words, ReflTransGen Reading.Calls (.program tokens) reading →
      reading.led? = some (keyword, words) →
        ∃ before sentence, Passes tokens before ∧ Sentence.next? before = some (sentence, reading.tokens) ∧
          sentence.words[0]? = some keyword ∧ sentence.words.drop 1 = words) ∧
      ∀ kind words split, Split.atKind? kind words = some split →
        words[split.before.length]? = some split.found ∧ words.take split.before.length = split.before ∧
          words.drop (split.before.length + 1) = split.after := by
  have spends := Program.read_spends tokens
  refine ⟨Reading.calls_wellFounded, Program.read_accounts tokens, Expression.read_costs, spends.paid, spends.passes,
    fun reading reached => (Reading.placed tokens reached).passes, ?_, ?_, ?_, fun kind words split => Split.at?_index⟩
  · intro program read
    rw [spends.passes.sinceEnd_eq]
    exact (Sentence.sinceEnd_of_next?_none ((Program.read_finishes tokens).ok program read)).symm
  · intro error _
    refine ⟨(Program.read tokens).within, ?_⟩
    rw [spends.passes.sinceEnd_eq]
    exact List.dropWhile_suffix _
  · intro reading keyword words reached led
    obtain ⟨stop, line⟩ := Reading.line?_of_led? led
    obtain ⟨before, passes, next⟩ := (Reading.placed tokens reached).line _ line
    exact ⟨before, _, passes, next, rfl, rfl⟩

/-- An end of the input amid the tokens: a blank line before it is read, and indentation before it is refused. -/
theorem reading_stays_before_end_amid :
    (Program.read [Token.newline ⟨"notes", 1⟩, Token.eof ⟨"notes", 2⟩, Token.endIndent ⟨"notes", 3⟩]).rest =
        [Token.eof ⟨"notes", 2⟩, Token.endIndent ⟨"notes", 3⟩] ∧
      [Token.eof ⟨"notes", 2⟩, Token.newline ⟨"notes", 3⟩] <:+
        (Program.read [Token.beginIndent ⟨"notes", 1⟩, Token.eof ⟨"notes", 2⟩, Token.newline ⟨"notes", 3⟩]).rest := by
  have read : (Program.read [Token.newline ⟨"notes", 1⟩, Token.eof ⟨"notes", 2⟩, Token.endIndent ⟨"notes", 3⟩]).result =
      .ok [.literal .nothing 1] := by
    cbv
  have refused : (Program.read [Token.beginIndent ⟨"notes", 1⟩, Token.eof ⟨"notes", 2⟩,
      Token.newline ⟨"notes", 3⟩]).result = .error (.unexpectedIndentation ⟨"notes", 1⟩) := by
    cbv
  obtain ⟨-, -, -, -, -, -, leaves, -⟩ := reading_stays_before_end
    [Token.newline ⟨"notes", 1⟩, Token.eof ⟨"notes", 2⟩, Token.endIndent ⟨"notes", 3⟩]
  obtain ⟨-, -, -, -, -, -, -, keeps, -⟩ := reading_stays_before_end
    [Token.beginIndent ⟨"notes", 1⟩, Token.eof ⟨"notes", 2⟩, Token.newline ⟨"notes", 3⟩]
  exact ⟨leaves _ read, (keeps _ refused).2⟩

end Parlance
