import Parlance.Proofs.Node.Ensures
import Parlance.Proofs.Node.Print
import Parlance.Proofs.Node.Succeeds
import Parlance.Proofs.Node.Written

/-! The grammar of expressions: which tree words stand for, line numbers apart. Reading an expression finds a tree just
if there is one. -/
namespace Parlance

namespace Split

variable {wanted : Token → Bool} {words : List Token} {split : Split}

theorem at?_eq_none_iff : at? wanted words = none ↔ ∀ token ∈ words, wanted token = false := by
  induction words with
  | nil => simp [at?]
  | cons token rest ih =>
    rw [at?, List.forall_mem_cons, ← ih]
    split <;> simp_all

theorem at?_spec (cut : at? wanted words = some split) :
    wanted split.found = true ∧ ∀ token ∈ split.before, wanted token = false := by
  induction words generalizing split with
  | nil => cases cut
  | cons token rest ih =>
    rw [at?] at cut
    split at cut
    · rename_i found
      cases cut
      exact ⟨found, List.forall_mem_nil _⟩
    · rename_i passed
      obtain ⟨inner, further, rfl⟩ := Option.map_eq_some_iff.mp cut
      obtain ⟨found, before⟩ := ih further
      exact ⟨found, List.forall_mem_cons.mpr ⟨Bool.eq_false_iff.mpr passed, before⟩⟩

theorem at?_append {before : List Token} {found : Token} (after : List Token)
    (passed : ∀ token ∈ before, wanted token = false) (reached : wanted found = true) :
    at? wanted (before ++ found :: after) = some ⟨before, found, after⟩ := by
  induction before with
  | nil => simp [at?, reached]
  | cons token rest ih =>
    obtain ⟨first, later⟩ := List.forall_mem_cons.mp passed
    simp [at?, first, ih later]

theorem atKind?_eq_none_iff {kind : Kind} : atKind? kind words = none ↔ ∀ token ∈ words, token.kind ≠ kind := by
  simp [atKind?, at?_eq_none_iff]

theorem atKind?_spec {kind : Kind} (cut : atKind? kind words = some split) :
    split.found.kind = kind ∧ ∀ token ∈ split.before, token.kind ≠ kind := by
  simpa using at?_spec cut

theorem atKind?_append {kind : Kind} {before : List Token} {found : Token} (after : List Token)
    (passed : ∀ token ∈ before, token.kind ≠ kind) (reached : found.kind = kind) :
    atKind? kind (before ++ found :: after) = some ⟨before, found, after⟩ :=
  at?_append after (by simpa using passed) (by simpa using reached)

theorem atOperator?_eq_none_iff :
    atOperator? words = none ↔ ∀ operator : Operator, ∀ token ∈ words, token.isWord operator.spelling = false := by
  simp only [atOperator?, List.findSome?_eq_none_iff, Option.map_eq_none_iff, atWord?, at?_eq_none_iff]
  constructor
  · intro free operator
    exact free operator (by cases operator <;> decide)
  · exact fun free operator _ => free operator

end Split

/-- Plain words that make up a name. -/
structure Token.Names (words : List Token) (name : String) : Prop where
  spoken : words ≠ []
  plain : ∀ token ∈ words, token.kind = .word
  joined : " ".intercalate (words.map Token.lexeme) = name

namespace Expression

open Traced

variable {token : Token} {words : List Token} {node : Node}

/-- What a token stands for if it is all there is. -/
inductive Atom : Token → Node → Prop
  | number {token : Token} {n : Number} (kind : token.kind = .number)
      (value : Number.read? token.lexeme.toList = some n) : Atom token (.literal (.number n) 0)
  | yes {token : Token} (kind : token.kind = .keyword .trueWord) : Atom token (.literal (.boolean true) 0)
  | no {token : Token} (kind : token.kind = .keyword .falseWord) : Atom token (.literal (.boolean false) 0)
  | text {token : Token} (kind : token.kind = .text) : Atom token (.literal (.text token.lexeme) 0)

/-- What a token stands for before an argument. -/
inductive Head : Token → Node → Prop
  | word {token : Token} (kind : token.kind = .word) : Head token (.identifier token.lexeme 0)
  | atom {token : Token} {node : Node} (atom : Atom token node) : Head token node

def NoOf (words : List Token) : Prop :=
  ∀ token ∈ words, token.kind ≠ .keyword .ofWord

/-- The tree of an expression. Where there is an `of`, the first one parts a call's head from its argument, if it has
one; where there is an operator, the first in the operators' order parts its operands. -/
inductive Means : List Token → Node → Prop
  | atom {token : Token} {node : Node} (atom : Atom token node) : Means [token] node
  | name {the : Token} {words : List Token} {name : String} (led : the.kind = .keyword .theWord)
      (names : Token.Names words name) (free : Split.atOperator? (the :: words) = none) :
      Means (the :: words) (.identifier name 0)
  | beside {token : Token} {words : List Token} {callee argument : Node} (head : Head token callee)
      (given : Means words argument) (noOf : NoOf words) (free : Split.atOperator? (token :: words) = none) :
      Means (token :: words) (.call callee [argument] 0)
  | operation {words : List Token} {operator : Operator} {split : Split} {left right : Node} (noOf : NoOf words)
      (cut : Split.atOperator? words = some (operator, split)) (before : Means split.before left)
      (after : Means split.after right) :
      Means words (.call (.identifier operator.procedureName 0) [left, right] 0)
  | called {before after : List Token} {found : Token} {callee : Node} {arguments : List Node}
      (isOf : found.kind = .keyword .ofWord) (noOf : NoOf before) (named : before ≠ [])
      (short : ∀ token, before = [token] → Head token callee) (long : 2 ≤ before.length → Means before callee)
      (count : arguments.length = if after = [] then 0 else 1)
      (given : ∀ argument ∈ arguments, Means after argument) :
      Means (before ++ found :: after) (.call callee arguments 0)

theorem Means.ne_nil (means : Means words node) : words ≠ [] := by
  rintro rfl
  generalize same : ([] : List Token) = words at means
  cases means with
  | atom | name | beside => cases same
  | operation noOf cut =>
    subst same
    cases cut
  | called => simp at same

/-! ### What is read -/

theorem joinWords_ok_iff (anchor : Span) {name : String} :
    joinWords words anchor = .ok name ↔ Token.Names words name := by
  unfold joinWords
  constructor
  · intro joined
    split at joined
    · cases joined
    · rename_i some
      split at joined
      · cases joined
      · rename_i plain
        cases joined
        exact ⟨by simpa using some, by simpa using plain, rfl⟩
  · rintro ⟨spoken, plain, rfl⟩
    have found : words.find? (·.kind != .word) = none := by simpa using plain
    rw [if_neg (by simpa using spoken), found]

theorem readName_ok {anchor : Span} (read : readName words anchor = .ok node) :
    ∃ the rest name, words = the :: rest ∧ the.kind = .keyword .theWord ∧ Token.Names rest name ∧
      node = .identifier name the.span.line := by
  unfold readName at read
  split at read
  · cases read
  · rename_i the rest
    split at read
    · rename_i led
      cases joined : joinWords rest anchor with
      | error error =>
        rw [joined] at read
        cases read
      | ok name =>
        rw [joined] at read
        cases read
        exact ⟨the, rest, name, rfl, by simpa [Token.isKeyword] using led, (joinWords_ok_iff anchor).mp joined, rfl⟩
    · cases read

theorem readAtom_ok (read : readAtom token = .ok node) : Atom token node.unlined := by
  unfold readAtom at read
  split at read
  · rename_i kind
    split at read
    · rename_i value
      cases read
      exact .number kind value
    · cases read
  · rename_i kind
    cases read
    exact .yes kind
  · rename_i kind
    cases read
    exact .no kind
  · rename_i kind
    cases read
    exact .text kind
  · cases read

theorem readHeadWord_ok (read : readHeadWord token = .ok node) : Head token node.unlined := by
  unfold readHeadWord at read
  split at read
  · rename_i kind
    cases read
    exact .word kind
  · exact .atom (readAtom_ok read)

theorem readShortHead?_ok {anchor : Span} (short : readShortHead? words anchor = some (.ok node)) :
    ∃ token, words = [token] ∧ Head token node.unlined := by
  unfold readShortHead? at short
  split at short
  · cases short
  · rename_i token
    exact ⟨token, rfl, readHeadWord_ok (Option.some.inj short)⟩
  · cases short

theorem readShortHead?_none {anchor : Span} (long : readShortHead? words anchor = none) : 2 ≤ words.length := by
  unfold readShortHead? at long
  split at long
  · cases long
  · cases long
  · match words with
    | [] | [_] => simp_all
    | _ :: _ :: _ => simp

theorem readCallee_sound {anchor : Span} (inner : (read words anchor).Ensures (Means words ·.unlined)) :
    (readCallee words anchor).Ensures fun callee => words ≠ [] ∧
      (∀ token, words = [token] → Head token callee.unlined) ∧ (2 ≤ words.length → Means words callee.unlined) := by
  unfold readCallee
  split
  · rename_i head short
    refine ensures_ofExcept fun callee ok => ?_
    obtain ⟨token, rfl, head⟩ := readShortHead?_ok (ok ▸ short)
    refine ⟨by simp, ?_, by simp⟩
    rintro other ⟨⟩
    exact head
  · rename_i none
    have long := readShortHead?_none none
    intro callee ok
    have means := inner callee ok
    exact ⟨means.ne_nil, fun token alone => by simp [alone] at long, fun _ => means⟩

theorem readGiven_sound {anchor : Span} (inner : (read words anchor).Ensures (Means words ·.unlined)) :
    (readGiven words anchor).Ensures fun arguments =>
      (Node.unlinedAll arguments).length = (if words = [] then 0 else 1) ∧
        ∀ argument ∈ Node.unlinedAll arguments, Means words argument := by
  unfold readGiven
  split
  · rename_i empty
    obtain rfl := List.isEmpty_iff.mp empty
    exact ensures_pure (by simp [Node.unlinedAll])
  · rename_i filled
    have some : words ≠ [] := by simpa using filled
    refine ensures_bind inner fun node means => ensures_pure ⟨by simp [some, Node.unlinedAll], ?_⟩
    simpa [Node.unlinedAll] using means

theorem ensures_expect {anchor : Span} {good : Node → Prop} (context : String)
    (inner : (read words anchor).Ensures good) : (expect words anchor context).Ensures good := by
  unfold expect
  split
  · exact ensures_fail _ _
  · exact inner

/-- A tree that is read is one that the words stand for. -/
theorem read_sound (words : List Token) (anchor : Span) : (read words anchor).Ensures (Means words ·.unlined) := by
  induction words, anchor using read_induction with
  | nothing anchor => exact ensures_fail _ _
  | called first rest anchor split cut before after =>
    obtain ⟨isOf, noOf⟩ := Split.atKind?_spec cut
    refine ensures_bind (ensures_tell _) fun _ _ => ensures_bind (readCallee_sound before) ?_
    rintro callee ⟨named, short, long⟩
    refine ensures_bind (readGiven_sound after) ?_
    rintro arguments ⟨count, given⟩
    rw [← Split.at?_join cut]
    exact ensures_pure (.called isOf noOf named short long count given)
  | operation first rest anchor operator split noOf cut before after =>
    refine ensures_bind (ensures_tell _) fun _ _ => ensures_bind (ensures_expect _ before) fun left meansLeft => ?_
    refine ensures_bind (ensures_expect _ after) fun right meansRight => ensures_pure ?_
    exact .operation (Split.atKind?_eq_none_iff.mp noOf) cut meansLeft meansRight
  | name first rest anchor noOf free led =>
    refine ensures_bind (ensures_tell _) fun _ _ => ensures_ofExcept fun node ok => ?_
    obtain ⟨the, words, name, same, led, names, rfl⟩ := readName_ok ok
    cases same
    exact .name led names free
  | atom token anchor noOf free unled =>
    exact ensures_bind (ensures_tell _) fun _ _ => ensures_ofExcept fun node ok => .atom (readAtom_ok ok)
  | beside first rest anchor noOf free unled filled given =>
    have noOf : NoOf (first :: rest) := Split.atKind?_eq_none_iff.mp noOf
    refine ensures_bind (ensures_tell _) fun _ _ => ?_
    refine ensures_bind (ensures_ofExcept fun node ok => readHeadWord_ok ok) fun callee head => ?_
    refine ensures_bind given fun argument means => ensures_pure ?_
    exact .beside head means (fun token member => noOf token (.tail _ member)) free

/-! ### What can be read -/

theorem Atom.kind {token : Token} {node : Node} (atom : Atom token node) :
    token.kind = .number ∨ token.kind = .keyword .trueWord ∨ token.kind = .keyword .falseWord ∨ token.kind = .text := by
  cases atom <;> simp [*]

theorem Atom.readAtom (atom : Atom token node) : ∃ read, readAtom token = .ok read ∧ read.unlined = node := by
  cases atom with
  | @number n kind value =>
    exact ⟨.literal (.number n) token.span.line, by rw [Expression.readAtom, kind]; simp only [value], rfl⟩
  | yes kind => exact ⟨_, by rw [Expression.readAtom, kind], rfl⟩
  | no kind => exact ⟨_, by rw [Expression.readAtom, kind], rfl⟩
  | text kind => exact ⟨_, by rw [Expression.readAtom, kind], rfl⟩

theorem Head.readHeadWord (head : Head token node) : ∃ read, readHeadWord token = .ok read ∧ read.unlined = node := by
  cases head with
  | word kind => exact ⟨_, by rw [Expression.readHeadWord, if_pos kind], rfl⟩
  | atom atom =>
    have other : token.kind ≠ .word := by
      rcases atom.kind with kind | kind | kind | kind <;> simp [kind]
    rw [Expression.readHeadWord, if_neg other]
    exact atom.readAtom

theorem Head.kind (head : Head token node) :
    token.kind ≠ .keyword .ofWord ∧ token.kind ≠ .keyword .theWord ∧ token.kind.isLayout = false := by
  cases head with
  | word kind => simp [kind, Kind.isLayout]
  | atom atom => rcases atom.kind with kind | kind | kind | kind <;> simp [kind, Kind.isLayout]

theorem readCallee_complete {callee : Node} {anchor : Span} (named : words ≠ [])
    (short : ∀ token, words = [token] → Head token callee)
    (long : 2 ≤ words.length → (read words anchor).Succeeds (·.unlined = callee)) :
    (readCallee words anchor).Succeeds (·.unlined = callee) := by
  rcases words with _ | ⟨token, _ | ⟨second, rest⟩⟩
  · exact absurd rfl named
  · exact (short token rfl).readHeadWord
  · exact long (by simp)

theorem readGiven_complete {arguments : List Node} {anchor : Span}
    (count : arguments.length = if words = [] then 0 else 1)
    (given : ∀ argument ∈ arguments, (read words anchor).Succeeds (·.unlined = argument)) :
    (readGiven words anchor).Succeeds (Node.unlinedAll · = arguments) := by
  unfold readGiven
  cases words with
  | nil =>
    obtain rfl := List.length_eq_zero_iff.mp count
    exact succeeds_pure rfl
  | cons first rest =>
    obtain ⟨argument, rfl⟩ := List.length_eq_one_iff.mp count
    refine succeeds_bind (given argument List.mem_cons_self) ?_
    rintro _ rfl
    exact succeeds_pure rfl

theorem succeeds_expect {anchor : Span} {good : Node → Prop} (context : String) (some : words ≠ [])
    (inner : (read words anchor).Succeeds good) : (expect words anchor context).Succeeds good := by
  rwa [expect, if_neg (by simpa using some)]

/-- Words that stand for a tree are read as that tree. -/
theorem read_complete (means : Means words node) (anchor : Span) :
    (read words anchor).Succeeds (·.unlined = node) := by
  induction means generalizing anchor with
  | @atom token node atom =>
    have kinds := Head.kind (.atom atom)
    have other : token.kind ≠ .word := by rcases atom.kind with kind | kind | kind | kind <;> simp [kind]
    have free : Split.atOperator? [token] = none := by
      rw [Split.atOperator?_eq_none_iff]
      simp [Token.isWord, other]
    rw [read_whole anchor (Split.atKind?_eq_none_iff.mpr (List.forall_mem_singleton.mpr kinds.1)) free,
      if_neg (by simp [Token.isKeyword, kinds.2.1]), if_pos (by rfl)]
    exact succeeds_bind (succeeds_tell _) fun _ _ => atom.readAtom
  | @name the words name led names free =>
    have noOf : NoOf (the :: words) := by
      refine List.forall_mem_cons.mpr ⟨by simp [led], fun token member => ?_⟩
      simp [names.plain token member]
    rw [read_whole anchor (Split.atKind?_eq_none_iff.mpr noOf) free, if_pos (by simp [Token.isKeyword, led])]
    refine succeeds_bind (succeeds_tell _) fun _ _ => ⟨.identifier name the.span.line, ?_, rfl⟩
    rw [result_ofExcept, readName, if_pos (by simp [Token.isKeyword, led]), (joinWords_ok_iff anchor).mpr names]
    rfl
  | @beside token words callee argument head given noOf free ih =>
    have kinds := head.kind
    have noOf : NoOf (token :: words) := List.forall_mem_cons.mpr ⟨kinds.1, noOf⟩
    rw [read_whole anchor (Split.atKind?_eq_none_iff.mpr noOf) free, if_neg (by simp [Token.isKeyword, kinds.2.1]),
      if_neg (by simpa using given.ne_nil)]
    refine succeeds_bind (succeeds_tell _) fun _ _ => succeeds_bind head.readHeadWord ?_
    rintro _ rfl
    refine succeeds_bind (ih anchor) ?_
    rintro _ rfl
    exact succeeds_pure rfl
  | @operation words operator split left right noOf cut before after ihBefore ihAfter =>
    have filled : words ≠ [] := by
      rintro rfl
      cases cut
    obtain ⟨first, rest, rfl⟩ := List.exists_cons_of_ne_nil filled
    rw [read_operation anchor (Split.atKind?_eq_none_iff.mpr noOf) cut]
    refine succeeds_bind (succeeds_tell _) fun _ _ => succeeds_bind (succeeds_expect _ before.ne_nil (ihBefore _)) ?_
    rintro _ rfl
    refine succeeds_bind (succeeds_expect _ after.ne_nil (ihAfter anchor)) ?_
    rintro _ rfl
    exact succeeds_pure rfl
  | @called before after found callee arguments isOf noOf named short long count given ihLong ihGiven =>
    have cut := Split.atKind?_append after noOf isOf
    have head := readCallee_complete named short fun long => ihLong long found.span
    obtain ⟨first, more, rfl⟩ := List.exists_cons_of_ne_nil named
    rw [List.cons_append] at cut ⊢
    rw [read_called anchor cut]
    refine succeeds_bind (succeeds_tell _) fun _ _ => succeeds_bind head ?_
    rintro callee rfl
    refine succeeds_bind (readGiven_complete count fun argument member => ihGiven argument member anchor) ?_
    rintro arguments rfl
    exact succeeds_pure rfl

end Expression
end Parlance
