import Parlance.Proofs.Node.Grammar
import Parlance.Proofs.Text.Words

/-! Expressions without `of` as trees of four forms: literals, names, a word or a literal beside its argument, and
operations. A phrase can be said again, sign by sign, and the order of the operators in it tells whether it was split at
the first of them each time. Words that stand for a tree stand for the one such phrase that says them. -/
namespace Parlance

namespace Text

/-- The words of a name: what stands between its spaces. -/
def parts (name : String) : List String :=
  (name.toList.splitOn ' ').map String.ofList

theorem parts_ne_nil (name : String) : parts name ≠ [] := by
  simp [parts]

theorem intercalate_parts (name : String) : " ".intercalate (parts name) = name := by
  refine String.toList_inj.mp ?_
  rw [String.toList_intercalate, parts, List.map_map]
  simp [show " ".toList = [' '] from rfl, List.intercalate_splitOn, Function.comp_def]

theorem parts_intercalate {words : List String} (some : words ≠ []) (tight : ∀ word ∈ words, Tight word) :
    parts (" ".intercalate words) = words := by
  have spaceless : ∀ chars ∈ words.map String.toList, ' ' ∉ chars := by
    intro chars member
    obtain ⟨word, inside, rfl⟩ := List.mem_map.mp member
    intro space
    cases (tight word inside).2 ' ' space
  have split := List.splitOn_intercalate ' ' spaceless (by simpa using some)
  rw [parts, String.toList_intercalate, show " ".toList = [' '] from rfl, split, List.map_map]
  simp [Function.comp_def]

end Text

/-! ### Operators in order -/

/-- The operator's place in the order in which expressions are split. -/
def Operator.rank (operator : Operator) : Nat :=
  Operator.all.idxOf operator

/-- Whether the token is one of the operators' words. -/
def Token.isOperator (token : Token) : Bool :=
  Operator.all.any (token.isWord ·.spelling)

theorem Operator.mem_all (operator : Operator) : operator ∈ Operator.all := by
  cases operator <;> decide

theorem Operator.rank_inj {operator other : Operator} (same : operator.rank = other.rank) : operator = other :=
  (List.idxOf_inj operator.mem_all).mp same

theorem Operator.spelling_inj {operator other : Operator} (same : operator.spelling = other.spelling) :
    operator = other := by
  cases operator <;> cases other <;> simp [spelling] at same ⊢

theorem Token.isOperator_iff {token : Token} :
    token.isOperator = true ↔ ∃ operator : Operator, token.isWord operator.spelling = true := by
  simp [isOperator, Operator.mem_all]

theorem Token.isOperator_kind {token : Token} (operates : token.isOperator = true) : token.kind = .word := by
  obtain ⟨operator, word⟩ := isOperator_iff.mp operates
  simp only [isWord, Bool.and_eq_true, beq_iff_eq] at word
  exact word.1

namespace Split

variable {words before after : List Token} {found : Token} {operator : Operator} {split : Split}

theorem atOperator?_eq_none : atOperator? words = none ↔ ∀ token ∈ words, token.isOperator = false := by
  rw [atOperator?_eq_none_iff]
  constructor
  · intro free token member
    refine Bool.eq_false_iff.mpr fun operates => ?_
    obtain ⟨operator, word⟩ := Token.isOperator_iff.mp operates
    exact Bool.false_ne_true ((free operator token member).symm.trans word)
  · intro free operator token member
    refine Bool.eq_false_iff.mpr fun word => ?_
    exact Bool.false_ne_true ((free token member).symm.trans (Token.isOperator_iff.mpr ⟨operator, word⟩))

/-- The cut is at the first occurrence of an operator before which no other comes in the order. -/
theorem atOperator?_spec (cut : atOperator? words = some (operator, split)) :
    words = split.before ++ split.found :: split.after ∧ split.found.isWord operator.spelling = true ∧
      (∀ token ∈ split.before, token.isWord operator.spelling = false) ∧
      ∀ other : Operator, other.rank < operator.rank → ∀ token ∈ words, token.isWord other.spelling = false := by
  obtain ⟨earlier, _, later, order, found, passed⟩ := List.findSome?_eq_some_iff.mp cut
  obtain ⟨_, word, same⟩ := Option.map_eq_some_iff.mp found
  cases same
  obtain ⟨reached, before⟩ := at?_spec word
  refine ⟨(at?_join word).symm, reached, before, fun other less => ?_⟩
  have member : other ∈ earlier := by
    by_contra absent
    have atLeast : earlier.length ≤ other.rank := by
      rw [Operator.rank, order, List.idxOf_append_of_notMem absent]
      exact Nat.le_add_right _ _
    have atMost : operator.rank ≤ earlier.length := by
      rw [Operator.rank, order]
      by_cases known : operator ∈ earlier
      · rw [List.idxOf_append_of_mem known]
        exact List.idxOf_le_length
      · rw [List.idxOf_append_of_notMem known, List.idxOf_cons_self, Nat.add_zero]
    omega
  exact at?_eq_none_iff.mp (Option.map_eq_none_iff.mp (passed other member))

theorem atOperator?_append (passed : ∀ token ∈ before, token.isWord operator.spelling = false)
    (reached : found.isWord operator.spelling = true)
    (free : ∀ other : Operator, other.rank < operator.rank →
      ∀ token ∈ before ++ found :: after, token.isWord other.spelling = false) :
    atOperator? (before ++ found :: after) = some (operator, ⟨before, found, after⟩) := by
  refine List.findSome?_eq_some_iff.mpr
    ⟨Operator.all.take operator.rank, operator, Operator.all.drop (operator.rank + 1), ?_, ?_, ?_⟩
  · cases operator <;> rfl
  · exact Option.map_eq_some_iff.mpr ⟨_, at?_append after passed reached, rfl⟩
  · intro other member
    have less : other.rank < operator.rank := by
      revert other
      cases operator <;> decide
    exact Option.map_eq_none_iff.mpr (at?_eq_none_iff.mpr (free other less))

end Split

/-! ### Phrases -/

/-- What can stand before an argument without `the`. -/
inductive Bare where
  | word (text : String)
  | literal (value : Literal)
deriving DecidableEq, Repr

/-- What a token of an expression says: a number says its value. -/
inductive Sign where
  | the
  | bare (bare : Bare)
deriving DecidableEq, Repr

def Token.sign? (token : Token) : Option Sign :=
  match token.kind with
  | .word => some (.bare (.word token.lexeme))
  | .keyword .theWord => some .the
  | .number => (Number.read? token.lexeme.toList).map fun n => .bare (.literal (.number n))
  | .keyword .trueWord => some (.bare (.literal (.boolean true)))
  | .keyword .falseWord => some (.bare (.literal (.boolean false)))
  | .text => some (.bare (.literal (.text token.lexeme)))
  | _ => none

inductive Phrase where
  | literal (value : Literal)
  | name (text : String)
  | beside (head : Bare) (argument : Phrase)
  | operation (operator : Operator) (left right : Phrase)
deriving DecidableEq, Repr

def Bare.node (line : Nat) : Bare → Node
  | .word text => .identifier text line
  | .literal value => .literal value line

namespace Phrase

/-- The phrase said in order: an operator between its operands, a head before its argument, and `the` before the words
of a name. -/
def signs : Phrase → List Sign
  | .literal value => [.bare (.literal value)]
  | .name text => .the :: (Text.parts text).map (.bare ∘ .word)
  | .beside head argument => .bare head :: argument.signs
  | .operation operator left right => left.signs ++ .bare (.word operator.spelling) :: right.signs

/-- The operators of all operations in the phrase. -/
def operators : Phrase → List Operator
  | .literal _ | .name _ => []
  | .beside _ argument => argument.operators
  | .operation operator left right => left.operators ++ operator :: right.operators

/-- Every operation has only later operators on its left and no earlier ones on its right, and there are none beside a
head. -/
def FirstSplit : Phrase → Prop
  | .literal _ | .name _ => True
  | .beside _ argument => argument.operators = [] ∧ argument.FirstSplit
  | .operation operator left right =>
    (∀ other ∈ left.operators, operator.rank < other.rank) ∧ (∀ other ∈ right.operators, operator.rank ≤ other.rank) ∧
      left.FirstSplit ∧ right.FirstSplit

/-- No head is an operator's word. -/
def Plain : Phrase → Prop
  | .literal _ | .name _ => True
  | .beside head argument => (∀ operator : Operator, head ≠ .word operator.spelling) ∧ argument.Plain
  | .operation _ left right => left.Plain ∧ right.Plain

/-- The tree of the phrase, with all line numbers 0. -/
def node : Phrase → Node
  | .literal value => .literal value 0
  | .name text => .identifier text 0
  | .beside head argument => .call (head.node 0) [argument.node] 0
  | .operation operator left right => .call (.identifier operator.procedureName 0) [left.node, right.node] 0

end Phrase

namespace Node

def bare? : Node → Option Bare
  | .identifier name _ => some (.word name)
  | .literal value _ => some (.literal value)
  | _ => none

/-- The phrase of a call with these arguments. -/
def calling? (callee : Node) : List Phrase → Option Phrase
  | [argument] => callee.bare?.map (.beside · argument)
  | [left, right] => callee.operator?.map (.operation · left right)
  | _ => none

mutual

/-- The phrase that the node is the tree of, if it has the form of one. -/
def phrase? : Node → Option Phrase
  | .literal value _ => some (.literal value)
  | .identifier name _ => some (.name name)
  | .call callee arguments _ => (phrases? arguments).bind callee.calling?
  | _ => none

def phrases? : List Node → Option (List Phrase)
  | [] => some []
  | node :: rest => node.phrase?.bind fun phrase => (phrases? rest).map (phrase :: ·)

end

theorem bare?_node {node : Node} {bare : Bare} (found : node.bare? = some bare) : node.unlined = bare.node 0 := by
  cases node <;> cases found <;> rfl

theorem operator?_node {node : Node} {operator : Operator} (found : node.operator? = some operator) :
    node.unlined = .identifier operator.procedureName 0 := by
  cases node with
  | identifier name line =>
    have same : operator.procedureName = name := by simpa using List.find?_some found
    rw [same, unlined]
  | call | literal | assignment | conditional | loop | breaks | definition | returns => cases found

theorem calling?_node {callee : Node} {phrases : List Phrase} {phrase : Phrase}
    (found : callee.calling? phrases = some phrase) : phrase.node = .call callee.unlined (phrases.map Phrase.node) 0 := by
  unfold calling? at found
  split at found
  · obtain ⟨head, known, rfl⟩ := Option.map_eq_some_iff.mp found
    rw [Phrase.node, bare?_node known]
    rfl
  · obtain ⟨operator, known, rfl⟩ := Option.map_eq_some_iff.mp found
    rw [Phrase.node, operator?_node known]
    rfl
  · cases found

mutual

theorem phrase?_node {phrase : Phrase} : (node : Node) → node.phrase? = some phrase → phrase.node = node.unlined
  | .literal _ _, found | .identifier _ _, found => by
    cases found
    rfl
  | .call callee arguments _, found => by
    obtain ⟨phrases, known, found⟩ := Option.bind_eq_some_iff.mp found
    rw [calling?_node found, phrases?_node arguments known, unlined]
  | .assignment .., found | .conditional .., found | .loop .., found | .breaks _, found | .definition .., found
  | .returns .., found => by cases found

theorem phrases?_node {phrases : List Phrase} : (nodes : List Node) → phrases? nodes = some phrases →
    phrases.map Phrase.node = unlinedAll nodes
  | [], found => by
    cases found
    rfl
  | node :: rest, found => by
    obtain ⟨phrase, here, found⟩ := Option.bind_eq_some_iff.mp found
    obtain ⟨others, later, rfl⟩ := Option.map_eq_some_iff.mp found
    rw [List.map_cons, phrase?_node node here, phrases?_node rest later, unlinedAll]

end

theorem bare?_unlined (node : Node) : node.unlined.bare? = node.bare? := by
  cases node <;> rfl

theorem operator?_unlined (node : Node) : node.unlined.operator? = node.operator? := by
  cases node <;> rfl

theorem calling?_unlined (callee : Node) (phrases : List Phrase) :
    callee.unlined.calling? phrases = callee.calling? phrases := by
  simp only [calling?, bare?_unlined, operator?_unlined]

mutual

theorem phrase?_unlined : (node : Node) → node.unlined.phrase? = node.phrase?
  | .literal .. | .identifier .. | .assignment .. | .conditional .. | .loop .. | .breaks _ | .definition ..
  | .returns .. => rfl
  | .call callee arguments _ => by
    simp only [unlined, phrase?, phrases?_unlined arguments]
    exact congrArg _ (funext (calling?_unlined callee))

theorem phrases?_unlined : (nodes : List Node) → phrases? (unlinedAll nodes) = phrases? nodes
  | [] => rfl
  | node :: rest => by
    rw [unlinedAll, phrases?, phrase?_unlined node, phrases?_unlined rest, phrases?]

end

end Node

theorem Phrase.phrase?_tree (phrase : Phrase) : phrase.node.phrase? = some phrase := by
  induction phrase with
  | literal | name => rfl
  | beside head argument ih =>
    cases head <;> simp [node, Bare.node, Node.phrase?, Node.phrases?, ih, Node.calling?, Node.bare?]
  | operation operator left right ihLeft ihRight =>
    simp [node, Node.phrase?, Node.phrases?, ihLeft, ihRight, Node.calling?, Node.operator?,
      Operator.ofProcedureName?_procedureName]

/-! ### What the tokens say -/

namespace Token

variable {token : Token} {words : List Token}

theorem sign?_the : token.sign? = some .the ↔ token.kind = .keyword .theWord := by
  unfold sign?
  split <;> simp_all

theorem sign?_word {text : String} : token.sign? = some (.bare (.word text)) ↔ token.isWord text = true := by
  unfold sign? isWord
  split <;> simp_all

theorem sign?_literal {value : Literal} :
    token.sign? = some (.bare (.literal value)) ↔ Expression.Atom token (.literal value 0) := by
  constructor
  · intro said
    unfold sign? at said
    split at said <;> rename_i kind
    · cases said
    · cases said
    · obtain ⟨n, read, same⟩ := Option.map_eq_some_iff.mp said
      cases same
      exact .number kind read
    · cases said
      exact .yes kind
    · cases said
      exact .no kind
    · cases said
      exact .text kind
    · cases said
  · intro atom
    unfold sign?
    cases atom with
    | number kind read => simp [kind, read]
    | yes kind | no kind | text kind => simp [kind]

theorem sign?_bare {bare : Bare} : token.sign? = some (.bare bare) ↔ Expression.Head token (bare.node 0) := by
  cases bare with
  | word text =>
    rw [sign?_word]
    constructor
    · intro word
      obtain ⟨kind, rfl⟩ : token.kind = .word ∧ token.lexeme = text := by simpa [isWord] using word
      exact .word kind
    · intro head
      generalize same : (Bare.word text).node 0 = node at head
      cases head with
      | word kind =>
        cases same
        simp [isWord, kind]
      | atom atom => cases atom <;> cases same
  | literal value =>
    rw [sign?_literal]
    constructor
    · exact .atom
    · intro head
      generalize same : (Bare.literal value).node 0 = node at head
      cases head with
      | word => cases same
      | atom atom =>
        rw [← same] at atom
        exact atom

/-- Tokens that say a phrase have no `of` among them. -/
theorem noOf_of_signs {signs : List Sign} (said : words.map sign? = signs.map some) : Expression.NoOf words := by
  intro token member kind
  have inside : token.sign? ∈ signs.map some := said ▸ List.mem_map_of_mem member
  simp [sign?, kind] at inside

theorem Names.signs {name : String} (names : Names words name) (tight : ∀ token ∈ words, token.Tight) :
    words.map sign? = ((Text.parts name).map (.bare ∘ .word)).map some := by
  have lexemes : Text.parts name = words.map Token.lexeme := by
    rw [← names.joined]
    refine Text.parts_intercalate (by simpa using names.spoken) ?_
    intro lexeme member
    obtain ⟨token, inside, rfl⟩ := List.mem_map.mp member
    exact tight token inside (names.plain token inside)
  rw [lexemes, List.map_map, List.map_map]
  refine List.map_congr_left fun token member => ?_
  simp [sign?, names.plain token member]

theorem words_of_signs {texts : List String} (said : words.map sign? = (texts.map (.bare ∘ .word)).map some) :
    words.map Token.lexeme = texts ∧ ∀ token ∈ words, token.kind = .word := by
  induction words generalizing texts with
  | nil => simp_all
  | cons token rest ih =>
    cases texts with
    | nil => cases said
    | cons text texts =>
      obtain ⟨here, later⟩ := List.cons.inj said
      obtain ⟨kind, rfl⟩ : token.kind = .word ∧ token.lexeme = text := by simpa [isWord] using sign?_word.mp here
      obtain ⟨lexemes, kinds⟩ := ih later
      exact ⟨congrArg (token.lexeme :: ·) lexemes, List.forall_mem_cons.mpr ⟨kind, kinds⟩⟩

theorem names_of_signs {name : String} (said : words.map sign? = ((Text.parts name).map (.bare ∘ .word)).map some) :
    Names words name := by
  obtain ⟨lexemes, kinds⟩ := words_of_signs said
  refine ⟨?_, kinds, by rw [lexemes, Text.intercalate_parts]⟩
  rintro rfl
  exact Text.parts_ne_nil name lexemes.symm

end Token

/-! ### Words and phrases -/

namespace Expression

open Token

variable {words front back : List Token} {found : Token} {node : Node}

/-- Something that is not a plain word comes before any operator. -/
def Leads (words : List Token) : Prop :=
  ∃ passed token rest, words = passed ++ token :: rest ∧ token.kind ≠ .word ∧ ∀ word ∈ passed, word.isOperator = false

/-- After every operator something that is not a plain word comes before the next. -/
def Grounded (words : List Token) : Prop :=
  ∀ front found back, words = front ++ found :: back → found.isOperator = true → Leads back

theorem Leads.of_append (leads : Leads (front ++ found :: back)) (operates : found.isOperator = true) : Leads front := by
  obtain ⟨passed, token, rest, same, kind, free⟩ := leads
  have other : token ≠ found := by
    rintro rfl
    exact kind (isOperator_kind operates)
  rcases List.append_eq_append_iff.mp same with ⟨further, rfl, split⟩ | ⟨further, rfl, split⟩
  · rcases List.cons_eq_append_iff.mp split with ⟨-, met⟩ | ⟨more, rfl, -⟩
    · exact absurd (List.cons.inj met).1 other
    · exact absurd operates (Bool.eq_false_iff.mp (free found (by simp)))
  · rcases List.cons_eq_append_iff.mp split with ⟨-, met⟩ | ⟨more, rfl, -⟩
    · exact absurd (List.cons.inj met).1.symm other
    · exact ⟨passed, token, more, rfl, kind, free⟩

theorem Grounded.left (grounded : Grounded (front ++ found :: back)) (operates : found.isOperator = true) :
    Grounded front := by
  rintro earlier operator later rfl inner
  exact Leads.of_append (grounded earlier operator (later ++ found :: back) (by simp) inner) operates

theorem Grounded.right (grounded : Grounded (front ++ found :: back)) : Grounded back := by
  rintro earlier operator later rfl inner
  exact grounded (front ++ found :: earlier) operator later (by simp) inner

theorem Means.leads (means : Means words node) (noOf : NoOf words) : Leads words := by
  induction means with
  | @atom token node atom =>
    refine ⟨[], token, [], rfl, ?_, List.forall_mem_nil _⟩
    rcases atom.kind with kind | kind | kind | kind <;> simp [kind]
  | @name the words name led => exact ⟨[], the, words, rfl, by simp [led], List.forall_mem_nil _⟩
  | @beside token words callee argument head given inner free ih =>
    obtain ⟨passed, other, rest, rfl, kind, later⟩ := ih inner
    have here := Split.atOperator?_eq_none.mp free token List.mem_cons_self
    exact ⟨token :: passed, other, rest, rfl, kind, List.forall_mem_cons.mpr ⟨here, later⟩⟩
  | @operation words operator split left right inner cut before after ihBefore ihAfter =>
    obtain ⟨same, -, -, -⟩ := Split.atOperator?_spec cut
    obtain ⟨passed, other, rest, front, kind, free⟩ := ihBefore fun token member => inner token (by simp [same, member])
    exact ⟨passed, other, rest ++ split.found :: split.after, by rw [same, front]; simp, kind, free⟩
  | called isOf => exact absurd isOf (noOf _ (by simp))

theorem Means.grounded (means : Means words node) (noOf : NoOf words) : Grounded words := by
  induction means with
  | @atom token node atom =>
    rintro earlier operator later same operates
    have alone := List.mem_singleton.mp (same ▸ by simp : operator ∈ [token])
    rw [alone] at operates
    rcases atom.kind with kind | kind | kind | kind <;> cases kind.symm.trans (isOperator_kind operates)
  | name led names free | beside head given inner free =>
    rintro earlier operator later same operates
    have passes := Split.atOperator?_eq_none.mp free operator (by simp [same])
    exact absurd operates (Bool.eq_false_iff.mp passes)
  | @operation words operator split left right inner cut before after ihBefore ihAfter =>
    obtain ⟨same, reached, -, -⟩ := Split.atOperator?_spec cut
    have groundedBefore := ihBefore fun token member => inner token (by simp [same, member])
    have noOfAfter : NoOf split.after := fun token member => inner token (by simp [same, member])
    rintro earlier operator later split' operates
    rw [same] at split'
    rcases List.append_eq_append_iff.mp split' with ⟨further, rfl, met⟩ | ⟨further, front, met⟩
    · rcases List.cons_eq_append_iff.mp met with ⟨-, met⟩ | ⟨more, -, met⟩
      · rw [(List.cons.inj met).2]
        exact after.leads noOfAfter
      · exact ihAfter noOfAfter more operator later met operates
    · rcases List.cons_eq_append_iff.mp met with ⟨-, met⟩ | ⟨more, rfl, rfl⟩
      · rw [← (List.cons.inj met).2]
        exact after.leads noOfAfter
      · obtain ⟨passed, token, rest, rfl, kind, free⟩ := groundedBefore earlier operator more front operates
        exact ⟨passed, token, rest ++ split.found :: split.after, by simp, kind, free⟩
  | called isOf => exact absurd isOf (noOf _ (by simp))

/-- The phrase that words without `of` are read as. -/
theorem Means.phrase (means : Means words node) (noOf : NoOf words) (tight : ∀ token ∈ words, token.Tight) :
    ∃ phrase : Phrase, phrase.node = node ∧ words.map sign? = phrase.signs.map some ∧ phrase.FirstSplit ∧ phrase.Plain ∧
      ∀ operator ∈ phrase.operators, ∃ token ∈ words, token.isWord operator.spelling = true := by
  induction means with
  | @atom token node atom =>
    obtain ⟨value, rfl⟩ : ∃ value, node = .literal value 0 := by cases atom <;> exact ⟨_, rfl⟩
    refine ⟨.literal value, rfl, ?_, trivial, trivial, List.forall_mem_nil _⟩
    simp [Phrase.signs, sign?_literal.mpr atom]
  | @name the words name led names free =>
    refine ⟨.name name, rfl, ?_, trivial, trivial, List.forall_mem_nil _⟩
    rw [List.map_cons, names.signs fun token member => tight token (.tail _ member), sign?_the.mpr led]
    rfl
  | @beside token words callee argument head given inner free ih =>
    obtain ⟨phrase, rfl, said, first, plain, spoken⟩ := ih inner fun token member => tight token (.tail _ member)
    obtain ⟨bare, rfl⟩ : ∃ bare : Bare, callee = bare.node 0 := by
      cases head with
      | word => exact ⟨.word token.lexeme, rfl⟩
      | atom atom => cases atom <;> exact ⟨.literal _, rfl⟩
    have sign := sign?_bare.mpr head
    rw [Split.atOperator?_eq_none] at free
    refine ⟨.beside bare phrase, rfl, by simp [Phrase.signs, sign, said], ⟨?_, first⟩, ⟨?_, plain⟩, ?_⟩
    · refine List.eq_nil_iff_forall_not_mem.mpr fun operator member => ?_
      obtain ⟨token, inside, word⟩ := spoken operator member
      exact absurd (isOperator_iff.mpr ⟨operator, word⟩) (Bool.eq_false_iff.mp (free token (.tail _ inside)))
    · rintro operator rfl
      exact absurd (isOperator_iff.mpr ⟨operator, sign?_word.mp sign⟩) (Bool.eq_false_iff.mp (free token List.mem_cons_self))
    · intro operator member
      obtain ⟨token, inside, word⟩ := spoken operator member
      exact ⟨token, .tail _ inside, word⟩
  | @operation words operator split left right inner cut before after ihBefore ihAfter =>
    obtain ⟨same, reached, passed, free⟩ := Split.atOperator?_spec cut
    have part {token : Token} (member : token ∈ split.before ∨ token ∈ split.after) : token ∈ words := by
      rw [same]
      rcases member with member | member <;> simp [member]
    obtain ⟨first, rfl, saidLeft, splitLeft, plainLeft, spokenLeft⟩ :=
      ihBefore (fun token member => inner token (part (.inl member))) fun token member => tight token (part (.inl member))
    obtain ⟨second, rfl, saidRight, splitRight, plainRight, spokenRight⟩ :=
      ihAfter (fun token member => inner token (part (.inr member))) fun token member => tight token (part (.inr member))
    have least {other : Operator} {token : Token} (member : token ∈ words) (word : token.isWord other.spelling = true) :
        operator.rank ≤ other.rank :=
      Nat.le_of_not_lt fun less => absurd word (Bool.eq_false_iff.mp (free other less token member))
    refine ⟨.operation operator first second, rfl, ?_, ⟨?_, ?_, splitLeft, splitRight⟩, ⟨plainLeft, plainRight⟩, ?_⟩
    · rw [same]
      simp [Phrase.signs, saidLeft, saidRight, sign?_word.mpr reached]
    · intro other member
      obtain ⟨token, inside, word⟩ := spokenLeft other member
      refine Nat.lt_of_le_of_ne (least (part (.inl inside)) word) fun equal => ?_
      rw [← Operator.rank_inj equal] at word
      exact absurd word (Bool.eq_false_iff.mp (passed token inside))
    · intro other member
      obtain ⟨token, inside, word⟩ := spokenRight other member
      exact least (part (.inr inside)) word
    · intro other member
      rcases List.mem_append.mp member with inLeft | inRight
      · obtain ⟨token, inside, word⟩ := spokenLeft other inLeft
        exact ⟨token, part (.inl inside), word⟩
      · rcases List.mem_cons.mp inRight with rfl | inRight
        · exact ⟨split.found, by simp [same], reached⟩
        · obtain ⟨token, inside, word⟩ := spokenRight other inRight
          exact ⟨token, part (.inr inside), word⟩
  | called isOf => exact absurd isOf (noOf _ (by simp))

/-- What a phrase says stands for its tree, and the operators in it are those of its operations. -/
theorem means_of_signs {phrase : Phrase} (said : words.map sign? = phrase.signs.map some) (first : phrase.FirstSplit)
    (plain : phrase.Plain) (grounded : Grounded words) :
    Means words phrase.node ∧
      ∀ operator : Operator, ∀ token ∈ words, token.isWord operator.spelling = true → operator ∈ phrase.operators := by
  induction phrase generalizing words with
  | literal value =>
    obtain ⟨token, rfl, sign⟩ := List.map_eq_singleton_iff.mp said
    refine ⟨.atom (sign?_literal.mp sign), fun operator other member word => ?_⟩
    rw [List.mem_singleton.mp member] at word
    cases sign.symm.trans (sign?_word.mpr word)
  | name name =>
    obtain ⟨the, words, rfl, led, named⟩ := List.map_eq_cons_iff.mp said
    have names := names_of_signs named
    -- The name's words go on to the end, so an operator among them would have no ground after it.
    have free : ∀ token ∈ the :: words, token.isOperator = false := by
      intro token member
      refine Bool.eq_false_iff.mpr fun operates => ?_
      rcases List.mem_cons.mp member with rfl | inside
      · cases (sign?_the.mp led).symm.trans (isOperator_kind operates)
      · obtain ⟨front, back, rfl⟩ := List.append_of_mem inside
        obtain ⟨passed, other, rest, rfl, kind, -⟩ := grounded (the :: front) token back rfl operates
        exact kind (names.plain other (by simp))
    refine ⟨.name (sign?_the.mp led) names (Split.atOperator?_eq_none.mpr free), fun operator token member word => ?_⟩
    exact absurd (isOperator_iff.mpr ⟨operator, word⟩) (Bool.eq_false_iff.mp (free token member))
  | beside head argument ih =>
    obtain ⟨token, words, rfl, sign, rest⟩ := List.map_eq_cons_iff.mp said
    have onward : Grounded ([] ++ token :: words) := grounded
    obtain ⟨means, spoken⟩ := ih rest first.2 plain.2 onward.right
    have free : ∀ operator : Operator, ∀ other ∈ token :: words, other.isWord operator.spelling = false := by
      intro operator other member
      refine Bool.eq_false_iff.mpr fun word => ?_
      rcases List.mem_cons.mp member with rfl | inside
      · cases sign.symm.trans (sign?_word.mpr word)
        exact plain.1 operator rfl
      · have none := spoken operator other inside word
        rw [first.1] at none
        cases none
    refine ⟨.beside (sign?_bare.mp sign) means (noOf_of_signs rest) (Split.atOperator?_eq_none_iff.mpr free), ?_⟩
    intro operator other member word
    exact absurd word (Bool.eq_false_iff.mp (free operator other member))
  | operation operator left right ihLeft ihRight =>
    obtain ⟨earlier, later, splitLeft, splitRight⟩ := first
    obtain ⟨before, rest, rfl, saidLeft, saidRest⟩ := List.map_eq_append_iff.mp (said.trans List.map_append)
    obtain ⟨found, after, rfl, sign, saidRight⟩ := List.map_eq_cons_iff.mp saidRest
    have reached := sign?_word.mp sign
    have operates := isOperator_iff.mpr ⟨operator, reached⟩
    obtain ⟨meansLeft, spokenLeft⟩ := ihLeft saidLeft splitLeft plain.1 (grounded.left operates)
    obtain ⟨meansRight, spokenRight⟩ := ihRight saidRight splitRight plain.2 grounded.right
    have spoken : ∀ other : Operator, ∀ token ∈ before ++ found :: after, token.isWord other.spelling = true →
        other ∈ left.operators ∨ other = operator ∨ other ∈ right.operators := by
      intro other token member word
      rcases List.mem_append.mp member with inside | member
      · exact .inl (spokenLeft other token inside word)
      · rcases List.mem_cons.mp member with rfl | inside
        · have same := (sign?_word.mpr word).symm.trans sign
          simp only [Option.some.injEq, Sign.bare.injEq, Bare.word.injEq] at same
          exact .inr (.inl (Operator.spelling_inj same))
        · exact .inr (.inr (spokenRight other token inside word))
    have cut : Split.atOperator? (before ++ found :: after) = some (operator, ⟨before, found, after⟩) := by
      refine Split.atOperator?_append (fun token member => ?_) reached fun other less token member => ?_
      · refine Bool.eq_false_iff.mpr fun word => ?_
        exact Nat.lt_irrefl _ (earlier operator (spokenLeft operator token member word))
      · refine Bool.eq_false_iff.mpr fun word => ?_
        rcases spoken other token member word with inLeft | rfl | inRight
        · exact absurd (earlier other inLeft) (Nat.lt_asymm less)
        · exact Nat.lt_irrefl _ less
        · exact absurd (later other inRight) (Nat.not_le_of_lt less)
    refine ⟨.operation (noOf_of_signs said) cut meansLeft meansRight, fun other token member word => ?_⟩
    simpa [Phrase.operators] using spoken other token member word

theorem Means.unique (means : Means words node) {other : Node} (again : Means words other) : node = other := by
  obtain ⟨first, read, rfl⟩ := read_complete means ⟨"", 0⟩
  obtain ⟨second, reread, rfl⟩ := read_complete again ⟨"", 0⟩
  cases read.symm.trans reread
  rfl

end Expression
end Parlance
