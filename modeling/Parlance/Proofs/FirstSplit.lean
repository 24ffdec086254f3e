import Parlance.Proofs.Node.Phrase
import Parlance.Proofs.Node.Relocation

/-! How expressions are split. Without `of`, what is read is the one phrase that says the words again and in which every
operation stands at the first operator of its words; with `of`, it is the call that the first `of` parts. -/
namespace Parlance.Expression

variable {words before after : List Token} {found : Token} {anchor : Span} {node : Node}

theorem readHeadWord_bare {token : Token} (read : readHeadWord token = .ok node) :
    ∃ bare : Bare, token.sign? = some (.bare bare) ∧ node = bare.node token.span.line := by
  unfold readHeadWord at read
  split at read
  · rename_i kind
    cases read
    exact ⟨.word token.lexeme, by simp [Token.sign?, kind], rfl⟩
  · unfold readAtom at read
    split at read <;> rename_i kind
    · split at read
      · rename_i n value
        cases read
        exact ⟨.literal (.number n), by simp [Token.sign?, kind, value], rfl⟩
      · cases read
    · cases read
      exact ⟨.literal (.boolean true), by simp [Token.sign?, kind], rfl⟩
    · cases read
      exact ⟨.literal (.boolean false), by simp [Token.sign?, kind], rfl⟩
    · cases read
      exact ⟨.literal (.text token.lexeme), by simp [Token.sign?, kind], rfl⟩
    · cases read

/-- The call that the first `of` parts: before it a single bare token or an expression names the procedure, and after it
there is nothing or one argument. -/
theorem read_parted (isOf : found.kind = .keyword .ofWord) (noOf : NoOf before)
    (given : (read (before ++ found :: after) anchor).result = .ok node) :
    ∃ first callee arguments, before.head? = some first ∧ node = .call callee arguments first.span.line ∧
      (∀ token, before = [token] → ∃ bare : Bare, token.sign? = some (.bare bare) ∧ callee = bare.node token.span.line) ∧
      (2 ≤ before.length → (read before found.span).result = .ok callee) ∧
      (after = [] → arguments = []) ∧
      (after ≠ [] → ∃ argument, (read after anchor).result = .ok argument ∧ arguments = [argument]) := by
  have named : before ≠ [] := by
    rintro rfl
    have cut := Split.atKind?_append after noOf isOf
    rw [List.nil_append, result_called anchor cut] at given
    cases given
  obtain ⟨first, rest, rfl⟩ := List.exists_cons_of_ne_nil named
  have cut := Split.atKind?_append after noOf isOf
  rw [List.cons_append] at cut given
  rw [result_called anchor cut] at given
  dsimp only at given
  cases headed : (readShortHead? (first :: rest) found.span).getD (read (first :: rest) found.span).result with
  | error error =>
    rw [headed] at given
    cases given
  | ok callee =>
    rw [headed] at given
    obtain ⟨arguments, rfl, none, some⟩ : ∃ arguments, node = .call callee arguments first.span.line ∧
        (after = [] → arguments = []) ∧
        (after ≠ [] → ∃ argument, (read after anchor).result = .ok argument ∧ arguments = [argument]) := by
      cases after with
      | nil =>
        cases given
        exact ⟨[], rfl, fun _ => rfl, fun other => absurd rfl other⟩
      | cons next more =>
        rw [if_neg (by simp)] at given
        cases argued : (read (next :: more) anchor).result with
        | error error =>
          rw [argued] at given
          cases given
        | ok argument =>
          rw [argued] at given
          cases given
          exact ⟨[argument], rfl, fun none => absurd none (List.cons_ne_nil _ _), fun _ => ⟨argument, rfl, rfl⟩⟩
    refine ⟨first, callee, arguments, rfl, rfl, ?_, ?_, none, some⟩
    · intro token alone
      cases alone
      exact readHeadWord_bare headed
    · intro long
      have several : rest ≠ [] := by
        rintro rfl
        simp at long
      obtain ⟨second, more, rfl⟩ := List.exists_cons_of_ne_nil several
      exact headed

theorem read_phrase {phrase : Phrase} (evaluated : (read words anchor).result.toOption.bind Node.phrase? = some phrase) :
    ∃ node, (read words anchor).result = .ok node ∧ node.phrase? = some phrase := by
  cases given : (read words anchor).result with
  | error error =>
    rw [given] at evaluated
    cases evaluated
  | ok node =>
    rw [given] at evaluated
    exact ⟨node, rfl, evaluated⟩

/-- An expression that can be read has been split at the first `of`, if it has one, and else at its operators: the tree
says its words again, with nothing lost, doubled or moved; to the left of an operator there are only operators that come
after it in the order, and to its right none that come before it; there are none beside a head; and no other tree is like
that, unless it takes the word of an operator for a procedure's name. -/
theorem read_first_split (tight : ∀ token ∈ words, token.Tight) (given : (read words anchor).result = .ok node) :
    (NoOf words → ∃ phrase, node.phrase? = some phrase ∧ words.map Token.sign? = phrase.signs.map some ∧
      phrase.FirstSplit ∧ phrase.Plain ∧
      ∀ other tree, Node.phrase? other = some tree → words.map Token.sign? = tree.signs.map some → tree.FirstSplit →
        tree.Plain → other.unlined = node.unlined) ∧
    ∀ before found after, words = before ++ found :: after → found.kind = .keyword .ofWord → NoOf before →
      ∃ first callee arguments, before.head? = some first ∧ node = .call callee arguments first.span.line ∧
        (∀ token, before = [token] →
          ∃ bare : Bare, token.sign? = some (.bare bare) ∧ callee = bare.node token.span.line) ∧
        (2 ≤ before.length → (read before found.span).result = .ok callee) ∧
        (after = [] → arguments = []) ∧
        (after ≠ [] → ∃ argument, (read after anchor).result = .ok argument ∧ arguments = [argument]) := by
  have means := read_sound words anchor node given
  constructor
  · intro noOf
    obtain ⟨phrase, same, said, first, plain, -⟩ := means.phrase noOf tight
    refine ⟨phrase, ?_, said, first, plain, ?_⟩
    · rw [← node.phrase?_unlined, ← same, phrase.phrase?_tree]
    · intro other tree known saidToo firstToo plainToo
      obtain ⟨again, -⟩ := means_of_signs saidToo firstToo plainToo (means.grounded noOf)
      exact (Node.phrase?_node other known).symm.trans (again.unique means)
  · rintro before found after rfl isOf noOf
    exact read_parted isOf noOf given

/-- The earliest operator is in the middle, and equal ones lean to the right. -/
theorem read_first_split_leaning :
    ∃ words node phrase,
      words = Token.ofWords ⟨"s", 1⟩ (Text.words "10 minus f the first one multiply 2 minus 3 minus 4".toList) ∧
      phrase = .operation .multiply
        (.operation .minus (.literal (.number 10)) (.beside (.word "f") (.name "first one")))
        (.operation .minus (.literal (.number 2))
          (.operation .minus (.literal (.number 3)) (.literal (.number 4)))) ∧
      (read words ⟨"s", 1⟩).result = .ok node ∧ NoOf words ∧ node.phrase? = some phrase ∧
      words.map Token.sign? = phrase.signs.map some ∧ phrase.FirstSplit := by
  have evaluated : (read (Token.ofWords ⟨"s", 1⟩
      (Text.words "10 minus f the first one multiply 2 minus 3 minus 4".toList)) ⟨"s", 1⟩).result.toOption.bind
      Node.phrase? = some (.operation .multiply
        (.operation .minus (.literal (.number 10)) (.beside (.word "f") (.name "first one")))
        (.operation .minus (.literal (.number 2))
          (.operation .minus (.literal (.number 3)) (.literal (.number 4))))) := by
    decide +kernel
  have noOf : NoOf (Token.ofWords ⟨"s", 1⟩
      (Text.words "10 minus f the first one multiply 2 minus 3 minus 4".toList)) := by
    unfold NoOf
    decide +kernel
  obtain ⟨node, given, known⟩ := read_phrase evaluated
  obtain ⟨phrase, same, said, first, -⟩ :=
    (read_first_split (Token.ofWords_tight ⟨"s", 1⟩ (Text.words_tight _)) given).1 noOf
  cases known.symm.trans same
  exact ⟨_, node, _, rfl, rfl, given, noOf, known, said, first⟩

/-- Both trees say `5 plus 3`: nothing is split in the other one, in which `5` is called with the result of calling
`plus`. -/
theorem read_first_split_two_trees :
    ∃ words node other tree, words = Token.ofWords ⟨"s", 1⟩ (Text.words "5 plus 3".toList) ∧
      (∀ token ∈ words, token.Tight) ∧ NoOf words ∧ (read words ⟨"s", 1⟩).result = .ok node ∧
      Node.phrase? other = some tree ∧ words.map Token.sign? = tree.signs.map some ∧ tree.FirstSplit ∧
      other.unlined ≠ node.unlined := by
  have evaluated : (read (Token.ofWords ⟨"s", 1⟩ (Text.words "5 plus 3".toList)) ⟨"s", 1⟩).result.toOption.bind
      Node.phrase? = some (.operation .plus (.literal (.number 5)) (.literal (.number 3))) := by
    decide +kernel
  have noOf : NoOf (Token.ofWords ⟨"s", 1⟩ (Text.words "5 plus 3".toList)) := by
    unfold NoOf
    decide +kernel
  obtain ⟨node, given, known⟩ := read_phrase evaluated
  refine ⟨_, node, .call (.literal (.number 5) 1) [.call (.identifier "plus" 1) [.literal (.number 3) 1] 1] 1,
    .beside (.literal (.number 5)) (.beside (.word "plus") (.literal (.number 3))), rfl,
    Token.ofWords_tight ⟨"s", 1⟩ (Text.words_tight _), noOf, given, rfl,
    by decide +kernel, ⟨rfl, rfl, trivial⟩, ?_⟩
  intro same
  rw [← Node.phrase?_node node known] at same
  cases same

end Parlance.Expression
