import Parlance.Proofs.Node.Grammar
import Parlance.Proofs.Number
import Parlance.Proofs.Token.Spelling

/-! The words that an expression is written with stand for it. An operand or a head is written with its own words, as
far as they can be known from the tree; elsewhere a call comes to be written with `of`. -/
namespace Parlance

/-- The kinds of which expressions are made. -/
def Kind.isSpeech : Kind → Bool
  | .number | .word | .text => true
  | .keyword .theWord | .keyword .ofWord | .keyword .trueWord | .keyword .falseWord => true
  | .keyword _ | .newline | .eof | .beginIndent | .endIndent => false

theorem Kind.plain_of_isSpeech {kind : Kind} (speech : kind.isSpeech = true) : kind.isLayout = false := by
  cases kind <;> first | rfl | cases speech

namespace Token

/-- Tokens are changed in ways that no expression shows. -/
structure Keeps (f : Token → Token) : Prop where
  kind : ∀ token, (f token).kind = token.kind
  lexeme : ∀ token, token.kind ≠ .number → (f token).lexeme = token.lexeme
  value : ∀ token, Number.read? (f token).lexeme.toList = Number.read? token.lexeme.toList

theorem moved_keeps (span : Span) : Keeps (moved span) :=
  ⟨fun _ => rfl, fun _ _ => rfl, fun _ => rfl⟩

/-- A number as it is written out: in digits, without leading zeros. -/
def normal (token : Token) : Token :=
  if token.kind = .number then
    match Number.read? token.lexeme.toList with
    | some n => { token with lexeme := n.describe }
    | none => token
  else token

theorem normal_keeps : Keeps normal where
  kind token := by
    unfold normal
    split
    · split <;> rfl
    · rfl
  lexeme token other := by rw [normal, if_neg other]
  value token := by
    unfold normal
    split
    · split
      · rename_i value
        exact (Number.read?_describe _).trans value.symm
      · rfl
    · rfl

variable {f : Token → Token} {token : Token} {words : List Token}

theorem Keeps.isWord (keeps : Keeps f) (token : Token) (text : String) : (f token).isWord text = token.isWord text := by
  by_cases word : token.kind = .word
  · simp [Token.isWord, keeps.kind, keeps.lexeme token (by simp [word])]
  · have other : (token.kind == .word) = false := by simpa using word
    simp [Token.isWord, keeps.kind, other]

theorem Keeps.names (keeps : Keeps f) {name : String} (names : Names words name) : Names (words.map f) name where
  spoken := by simpa using names.spoken
  plain := by simpa [keeps.kind] using names.plain
  joined := by
    have same : ∀ token ∈ words, (f token).lexeme = token.lexeme :=
      fun token member => keeps.lexeme token (by simp [names.plain token member])
    rw [List.map_map]
    exact (congrArg _ (List.map_congr_left same)).trans names.joined

end Token

namespace Split

variable {f : Token → Token}

def map (f : Token → Token) (split : Split) : Split :=
  ⟨split.before.map f, f split.found, split.after.map f⟩

theorem at?_map {wanted : Token → Bool} (same : ∀ token, wanted (f token) = wanted token) (words : List Token) :
    at? wanted (words.map f) = (at? wanted words).map (map f) := by
  induction words with
  | nil => rfl
  | cons token rest ih =>
    simp only [List.map_cons, at?, same, ih]
    split
    · rfl
    · cases at? wanted rest <;> rfl

theorem atOperator?_map (keeps : Token.Keeps f) (words : List Token) :
    atOperator? (words.map f) = (atOperator? words).map fun (operator, split) => (operator, split.map f) := by
  have each (operator : Operator) : (atWord? operator.spelling (words.map f)).map (operator, ·) =
      ((atWord? operator.spelling words).map (operator, ·)).map fun (operator, split) => (operator, split.map f) := by
    rw [atWord?, at?_map fun token => keeps.isWord token operator.spelling, atWord?, Option.map_map, Option.map_map]
    rfl
  simp only [atOperator?, each, List.map_findSome?]
  rfl

end Split

namespace Expression

variable {f : Token → Token} {token : Token} {words : List Token} {node : Node}

theorem NoOf.map (keeps : Token.Keeps f) (noOf : NoOf words) : NoOf (words.map f) := by
  simpa [NoOf, keeps.kind] using noOf

theorem Atom.map (keeps : Token.Keeps f) (atom : Atom token node) : Atom (f token) node := by
  cases atom with
  | number kind value => exact .number ((keeps.kind token).trans kind) ((keeps.value token).trans value)
  | yes kind => exact .yes ((keeps.kind token).trans kind)
  | no kind => exact .no ((keeps.kind token).trans kind)
  | text kind =>
    rw [← keeps.lexeme token (by simp [kind])]
    exact .text ((keeps.kind token).trans kind)

theorem Head.map (keeps : Token.Keeps f) (head : Head token node) : Head (f token) node := by
  cases head with
  | word kind =>
    rw [← keeps.lexeme token (by simp [kind])]
    exact .word ((keeps.kind token).trans kind)
  | atom atom => exact .atom (atom.map keeps)

theorem Means.map (keeps : Token.Keeps f) (means : Means words node) : Means (words.map f) node := by
  have uncut {words : List Token} (free : Split.atOperator? words = none) : Split.atOperator? (words.map f) = none := by
    rw [Split.atOperator?_map keeps, free]
    rfl
  induction means with
  | atom atom => exact .atom (atom.map keeps)
  | name led names free => exact .name ((keeps.kind _).trans led) (keeps.names names) (uncut free)
  | beside head given noOf free ih => exact .beside (head.map keeps) ih (noOf.map keeps) (uncut free)
  | @operation words operator split left right noOf cut before after ihBefore ihAfter =>
    have changed : Split.atOperator? (words.map f) = some (operator, split.map f) := by
      rw [Split.atOperator?_map keeps, cut]
      rfl
    exact .operation (noOf.map keeps) changed ihBefore ihAfter
  | @called before after found callee arguments isOf noOf named short long count given ihLong ihGiven =>
    rw [List.map_append, List.map_cons]
    refine .called ((keeps.kind _).trans isOf) (noOf.map keeps) (by simpa using named) ?_ ?_ ?_ ihGiven
    · intro token alone
      obtain ⟨original, rfl, rfl⟩ := List.map_eq_singleton_iff.mp alone
      exact (short original rfl).map keeps
    · exact fun two => ihLong (by simpa using two)
    · simpa using count

theorem Head.speech (head : Head token node) : token.kind.isSpeech = true := by
  cases head with
  | word kind => simp [kind, Kind.isSpeech]
  | atom atom => rcases atom.kind with kind | kind | kind | kind <;> simp [kind, Kind.isSpeech]

theorem Means.speech (means : Means words node) : ∀ token ∈ words, token.kind.isSpeech = true := by
  induction means with
  | atom atom => exact List.forall_mem_singleton.mpr (Head.atom atom).speech
  | name led names free =>
    refine List.forall_mem_cons.mpr ⟨by simp [led, Kind.isSpeech], fun token member => ?_⟩
    simp [names.plain token member, Kind.isSpeech]
  | beside head given noOf free ih => exact List.forall_mem_cons.mpr ⟨head.speech, ih⟩
  | operation noOf cut before after ihBefore ihAfter =>
    have word := Split.atOperator?_cut cut
    have found := (Split.at?_spec word).1
    simp only [Token.isWord, Bool.and_eq_true, beq_iff_eq] at found
    rw [← Split.at?_join word]
    refine List.forall_mem_append.mpr ⟨ihBefore, List.forall_mem_cons.mpr ⟨?_, ihAfter⟩⟩
    simp [found.1, Kind.isSpeech]
  | @called before after found callee arguments isOf noOf named short long count given ihLong ihGiven =>
    refine List.forall_mem_append.mpr ⟨?_, List.forall_mem_cons.mpr ⟨by simp [isOf, Kind.isSpeech], ?_⟩⟩
    · by_cases single : before.length = 1
      · obtain ⟨token, rfl⟩ := List.length_eq_one_iff.mp single
        exact List.forall_mem_singleton.mpr (short token rfl).speech
      · have some := List.length_pos_iff.mpr named
        exact ihLong (by omega)
    · cases after with
      | nil => exact List.forall_mem_nil _
      | cons next rest =>
        obtain ⟨argument, rfl⟩ := List.length_eq_one_iff.mp count
        exact ihGiven argument List.mem_cons_self

end Expression

/-! ### Numbers written out -/

theorem Text.isBlank_of_isDigit {c : Char} (digit : c.isDigit = true) : isBlank c = false := by
  have bounds : 48 ≤ c.toNat ∧ c.toNat ≤ 57 := by
    simpa [Char.isDigit, UInt32.le_iff_toNat_le] using digit
  simp only [isBlank]
  grind

theorem Text.Word.kind_of_numeric {text : String} (numeric : text.toList.head?.any isNumeric = true) :
    (Word.whole text).kind = .number := by
  unfold Word.kind
  split
  · rename_i keyword found
    have same : text = keyword.spelling := Keyword.spelling_of_keyword? found
    subst same
    cases keyword <;> cases numeric
  · exact if_pos numeric

theorem Text.Word.numeric_of_kind {text : String} (kind : (Word.whole text).kind = .number) :
    text.toList.head?.any isNumeric = true := by
  unfold Word.kind at kind
  split at kind
  · cases kind
  · split at kind
    · assumption
    · cases kind

namespace Token

theorem normal_faithful {token : Token} (faithful : token.Faithful) : token.normal.Faithful := by
  unfold normal
  split
  · rename_i kind
    split
    · rename_i n value
      simp only [Faithful, kind] at faithful ⊢
      have numeric := Text.Word.numeric_of_kind faithful.2.2
      obtain ⟨m, digits⟩ := Number.describe_digits numeric value
      obtain ⟨c, rest, begins, digit⟩ := Number.toDigits_begins m
      have begun : n.describe.toList.head?.any Text.isNumeric = true := by
        rw [digits, begins]
        exact Text.isNumeric_of_isDigit digit
      refine ⟨⟨?_, ?_⟩, ?_, Text.Word.kind_of_numeric begun⟩
      · rw [digits, begins]
        exact List.cons_ne_nil c rest
      · intro c member
        rw [digits] at member
        exact Text.isBlank_of_isDigit (Nat.isDigit_of_mem_toDigits (by decide) (by decide) member)
      · intro same
        rw [same] at begun
        cases begun
    · exact faithful
  · exact faithful

theorem Legible.normal {tokens : List Token} (legible : Legible tokens) : Legible (tokens.map Token.normal) where
  faithful := List.forall_mem_map.mpr fun token member => normal_faithful (legible.faithful token member)
  joins := by
    rw [List.isChain_map]
    refine legible.joins.imp fun token next joins => ?_
    simpa only [Joins, normal_keeps.kind, normal_keeps.isWord] using joins

theorem normal_of_kind {token : Token} (other : token.kind ≠ .number) : token.normal = token :=
  if_neg other

theorem Names.map_normal {words : List Token} {name : String} (names : Names words name) :
    words.map Token.normal = words := by
  refine (List.map_congr_left fun token member => normal_of_kind ?_).trans (List.map_id words)
  simp [names.plain token member]

theorem Faithful.tight {token : Token} (faithful : token.Faithful) (word : token.kind = .word) :
    Text.Tight token.lexeme := by
  simp only [Faithful, word] at faithful
  exact faithful.1

theorem Names.wordsOf {words : List Token} {name : String} (names : Names words name)
    (faithful : ∀ token ∈ words, token.Faithful) : Text.wordsOf name = words.map Token.lexeme := by
  rw [← names.joined, Text.wordsOf_intercalate]
  exact List.forall_mem_map.mpr fun token member => (faithful token member).tight (names.plain token member)

theorem Names.spelled {words : List Token} {name : String} (names : Names words name) :
    words.flatMap Token.spelled = words.map Token.lexeme := by
  rw [← List.flatMap_singleton' (words.map Token.lexeme), List.flatMap_map]
  refine List.flatMap_congr fun token member => ?_
  simp [Token.spelled, names.plain token member]

end Token

/-! ### Expressions written out -/

/-- Names that are written in words with single spaces are not those of operators. -/
theorem Operator.ofProcedureName?_none {name : String} (single : " ".intercalate (Text.wordsOf name) = name) :
    Operator.ofProcedureName? name = none := by
  rw [Operator.ofProcedureName?, List.find?_eq_none]
  intro operator _ same
  rw [← beq_iff_eq.mp same] at single
  revert single
  cases operator <;> decide

namespace Node

def spellHead (callee : Node) : List String :=
  match callee.bareWord? with
  | some word => [word]
  | none => callee.spell true

theorem spell_call {callee : Node} (plain : callee.operator? = none) (tight : Bool) (arguments : List Node) (line : Nat) :
    (Node.call callee arguments line).spell tight =
      callee.spellHead ++ (if tight then [] else ["of"]) ++ (spellAll tight arguments).flatten := by
  simp only [spell, plain]
  rfl

end Node

namespace Expression

open Token (Legible Faithful)

variable {token : Token} {words : List Token} {node : Node}

theorem Atom.spell (atom : Atom token node) (tight : Bool) : node.spell tight = token.normal.spelled := by
  cases atom with
  | @number n kind value =>
    have normal : token.normal = { token with lexeme := n.describe } := by
      rw [Token.normal, if_pos kind, value]
    simp [normal, Token.spelled, kind, Node.spell, Literal.describe]
  | yes kind =>
    rw [Token.normal_of_kind (by simp [kind])]
    simp [Token.spelled, kind, Node.spell, Literal.describe, Keyword.spelling]
  | no kind =>
    rw [Token.normal_of_kind (by simp [kind])]
    simp [Token.spelled, kind, Node.spell, Literal.describe, Keyword.spelling]
  | text kind =>
    rw [Token.normal_of_kind (by simp [kind])]
    simp [Token.spelled, kind, Node.spell]

theorem Head.spellHead (head : Head token node) (faithful : token.Faithful) :
    node.operator? = none ∧ node.spellHead = token.normal.spelled := by
  cases head with
  | word kind =>
    have alone := (faithful.tight kind).wordsOf
    refine ⟨Operator.ofProcedureName?_none (by rw [alone]; simp), ?_⟩
    simp [Node.spellHead, Node.bareWord?, alone, Token.normal_of_kind, Token.spelled, kind]
  | atom atom =>
    have spelled := atom.spell true
    cases atom <;> exact ⟨rfl, spelled⟩

theorem Means.operator? (means : Means words node) (faithful : ∀ token ∈ words, token.Faithful) :
    node.operator? = none := by
  cases means with
  | atom atom => cases atom <;> rfl
  | name led names free =>
    refine Operator.ofProcedureName?_none ?_
    rw [names.wordsOf fun token member => faithful token (.tail _ member), names.joined]
  | beside | operation | called => rfl

/-- Without `of`, an expression is written with the words that stand for it. -/
theorem Means.spell_tight (means : Means words node) (noOf : NoOf words) (faithful : ∀ token ∈ words, token.Faithful) :
    node.spell true = (words.map Token.normal).flatMap Token.spelled := by
  induction means with
  | atom atom => simpa using atom.spell true
  | @name the words name led names free =>
    have later : ∀ token ∈ words, token.Faithful := fun token member => faithful token (.tail _ member)
    have the : the.normal.spelled = ["the"] := by simp [Token.normal_of_kind, Token.spelled, led, Keyword.spelling]
    rw [List.map_cons, List.flatMap_cons, the, names.map_normal, names.spelled, Node.spell, names.wordsOf later]
    rfl
  | @beside token words callee argument head given _ free ih =>
    obtain ⟨first, later⟩ := List.forall_mem_cons.mp faithful
    obtain ⟨plain, spelled⟩ := head.spellHead first
    rw [Node.spell_call plain, spelled, List.map_cons, List.flatMap_cons,
      ← ih (fun token member => noOf token (.tail _ member)) later]
    simp [Node.spellAll]
  | @operation words operator split left right _ cut before after ihBefore ihAfter =>
    have word := Split.atOperator?_cut cut
    have found := (Split.at?_spec word).1
    simp only [Token.isWord, Bool.and_eq_true, beq_iff_eq] at found
    have spelled : split.found.normal.spelled = [operator.spelling] := by
      simp [Token.normal_of_kind, Token.spelled, found]
    have joined := Split.at?_join word
    rw [← joined, NoOf, List.forall_mem_append, List.forall_mem_cons] at noOf
    rw [← joined, List.forall_mem_append, List.forall_mem_cons] at faithful
    rw [Node.spell, Node.operator?, Operator.ofProcedureName?_procedureName, ← joined, List.map_append, List.map_cons,
      List.flatMap_append, List.flatMap_cons, spelled, ← ihBefore noOf.1 faithful.1, ← ihAfter noOf.2.2 faithful.2.2]
    simp [Node.spellAll]
  | @called before after found callee arguments isOf =>
    exact absurd isOf (noOf found (by simp))

theorem Means.bareWord? (means : Means words node) (faithful : ∀ token ∈ words, token.Faithful) {word : String}
    (bare : node.bareWord? = some word) :
    ∃ the token, words = [the, token] ∧ token.kind = .word ∧ word = token.lexeme ∧ node = .identifier token.lexeme 0 := by
  cases means with
  | atom atom => cases atom <;> cases bare
  | @name the words name led names free =>
    rw [Node.bareWord?, names.wordsOf fun token member => faithful token (.tail _ member)] at bare
    match words with
    | [] => cases bare
    | [token] =>
      cases bare
      exact ⟨the, token, rfl, names.plain token List.mem_cons_self, rfl, by simp [← names.joined]⟩
    | _ :: _ :: _ => cases bare
  | beside | operation | called => cases bare

/-- A head is written with its own words, or as the one word that its name has. -/
theorem Means.loosened_head {before : List Token} {found : Token} {callee : Node} (legible : Legible (before ++ [found]))
    (isOf : found.kind = .keyword .ofWord) (noOf : NoOf before) (named : before ≠ [])
    (short : ∀ token, before = [token] → Head token callee) (long : 2 ≤ before.length → Means before callee) :
    callee.operator? = none ∧ ∃ tokens, Legible (tokens ++ [found]) ∧ NoOf tokens ∧ tokens ≠ [] ∧
      (∀ token, tokens = [token] → Head token callee) ∧ (2 ≤ tokens.length → Means tokens callee) ∧
      tokens.flatMap Token.spelled = callee.spellHead := by
  have faithful : ∀ token ∈ before, token.Faithful := fun token member => legible.faithful token (by simp [member])
  have normal : Legible (before.map Token.normal ++ [found]) := by
    have all := legible.normal
    rwa [List.map_append, List.map_singleton, Token.normal_of_kind (by simp [isOf])] at all
  match before with
  | [token] =>
    have head := short token rfl
    obtain ⟨plain, spelled⟩ := head.spellHead (faithful token List.mem_cons_self)
    refine ⟨plain, [token.normal], normal, noOf.map Token.normal_keeps, nofun, ?_, by simp, by simp [spelled]⟩
    rintro _ ⟨⟩
    exact head.map Token.normal_keeps
  | first :: second :: more =>
    have means := long (by simp)
    refine ⟨means.operator? faithful, ?_⟩
    cases bare : callee.bareWord? with
    | none =>
      refine ⟨_, normal, noOf.map Token.normal_keeps, by simp, by simp, fun _ => means.map Token.normal_keeps, ?_⟩
      rw [Node.spellHead, bare]
      exact (means.spell_tight noOf faithful).symm
    | some word =>
      -- A head of `the` and one word loses its `the`, which makes it a short one.
      obtain ⟨the, token, same, kind, rfl, rfl⟩ := means.bareWord? faithful bare
      rw [same] at legible
      refine ⟨[token], legible.infixed (List.suffix_cons the _).isInfix, ?_, nofun, ?_, by simp, ?_⟩
      · exact List.forall_mem_singleton.mpr (by simp [kind])
      · rintro _ ⟨⟩
        exact .word kind
      · rw [Node.spellHead, bare]
        simp [Token.spelled, kind]

theorem Means.loosened_call {before rest : List Token} {found : Token} {callee : Node} {arguments : List Node}
    (legible : Legible (before ++ [found])) (isOf : found.kind = .keyword .ofWord) (noOf : NoOf before)
    (named : before ≠ []) (short : ∀ token, before = [token] → Head token callee)
    (long : 2 ≤ before.length → Means before callee) (last : Legible rest)
    (count : arguments.length = if rest = [] then 0 else 1) (given : ∀ argument ∈ arguments, Means rest argument)
    (written : rest.flatMap Token.spelled = (Node.spellAll false arguments).flatten) :
    ∃ tokens, Legible tokens ∧ Means tokens (.call callee arguments 0) ∧
      tokens.flatMap Token.spelled = (Node.call callee arguments 0).spell false := by
  obtain ⟨plain, first, fine, fewer, some, shorter, longer, spelled⟩ :=
    Means.loosened_head legible isOf noOf named short long
  refine ⟨first ++ found :: rest, ?_, .called isOf fewer some shorter longer count given, ?_⟩
  · rw [← List.singleton_append, ← List.append_assoc]
    refine fine.append last fun token final next _ => ?_
    rw [List.getLast?_concat] at final
    cases final
    exact .of_kind (by simp [isOf]) (by simp [isOf]) next
  · have of : found.spelled = ["of"] := by simp [Token.spelled, isOf, Keyword.spelling]
    rw [List.flatMap_append, List.flatMap_cons, of, spelled, written, Node.spell_call plain]
    simp

/-- An expression can be read from the words that it is written with. -/
theorem Means.loosened (means : Means words node) (legible : Legible words) :
    ∃ tokens, Legible tokens ∧ Means tokens node ∧ tokens.flatMap Token.spelled = node.spell false := by
  have kept {words : List Token} {node : Node} (means : Means words node) (legible : Legible words) (noOf : NoOf words)
      (same : node.spell false = node.spell true) :
      ∃ tokens, Legible tokens ∧ Means tokens node ∧ tokens.flatMap Token.spelled = node.spell false :=
    ⟨words.map Token.normal, legible.normal, means.map Token.normal_keeps,
      (same.trans (means.spell_tight noOf legible.faithful)).symm⟩
  induction means with
  | @atom token node atom =>
    refine kept (.atom atom) legible (List.forall_mem_singleton.mpr (Head.kind (.atom atom)).1) ?_
    rw [atom.spell false, atom.spell true]
  | @name the words name led names free =>
    refine kept (.name led names free) legible (List.forall_mem_cons.mpr ⟨by simp [led], ?_⟩) rfl
    exact fun token member => by simp [names.plain token member]
  | @operation words operator split left right noOf cut before after =>
    refine kept (.operation noOf cut before after) legible noOf ?_
    simp [Node.spell, Node.operator?, Operator.ofProcedureName?_procedureName]
  | @beside token words callee argument head given noOf free ih =>
    have later : Legible words := legible.infixed (List.suffix_cons token words).isInfix
    obtain ⟨rest, last, means, spelled⟩ := ih later
    have text : token.kind ≠ .text := fun text => given.ne_nil <|
      legible.text_last (fun next member => Kind.plain_of_isSpeech (given.speech next member)) text
    have faithful := legible.faithful token List.mem_cons_self
    -- The head and the argument stood side by side. Written out they have an `of` between them.
    let found : Token := ⟨.keyword .ofWord, "of", token.span⟩
    have parted : Legible ([token] ++ [found]) := by
      refine .cons faithful ?_ (.single rfl)
      rintro _ ⟨⟩
      exact ⟨fun kind => absurd kind text, fun both => by cases both.2⟩
    refine Means.loosened_call parted rfl (List.forall_mem_singleton.mpr head.kind.1) nofun ?_ (by simp) last
      (by simp [means.ne_nil]) (List.forall_mem_singleton.mpr means) (by simp [Node.spellAll, spelled])
    rintro _ ⟨⟩
    exact head
  | @called before after found callee arguments isOf noOf named short long count given _ ihGiven =>
    have parted : Legible (before ++ [found]) := legible.infixed ⟨[], after, by simp⟩
    have later : Legible after := legible.infixed ⟨before ++ [found], [], by simp⟩
    cases after with
    | nil =>
      obtain rfl := List.length_eq_zero_iff.mp count
      exact Means.loosened_call parted isOf noOf named short long later count given rfl
    | cons next rest =>
      obtain ⟨argument, rfl⟩ := List.length_eq_one_iff.mp count
      obtain ⟨tokens, last, means, spelled⟩ := ihGiven argument List.mem_cons_self later
      exact Means.loosened_call parted isOf noOf named short long last (by simp [means.ne_nil])
        (List.forall_mem_singleton.mpr means) (by simp [Node.spellAll, spelled])

end Expression
end Parlance
