import Parlance.Proofs.Node.Sayable

/-! The line of a statement. The words that it is written with are read as tokens of the right shape, and of a line of
that shape the statement is read. -/
namespace Parlance

namespace Node

mutual

theorem spell_unlined (tight : Bool) : (node : Node) → node.unlined.spell tight = node.spell tight
  | .identifier .. | .assignment .. | .conditional .. | .loop .. | .breaks .. | .definition .. | .returns .. => rfl
  | .literal value _ => by cases value <;> rfl
  | .call callee arguments _ => by
    have operator : callee.unlined.operator? = callee.operator? := by cases callee <;> rfl
    have bare : callee.unlined.bareWord? = callee.bareWord? := by cases callee <;> rfl
    simp only [unlined, spell, operator, bare, spell_unlined true callee, spellAll_unlined tight arguments,
      spellAll_unlined true arguments]

theorem spellAll_unlined (tight : Bool) : (nodes : List Node) → spellAll tight (unlinedAll nodes) = spellAll tight nodes
  | [] => rfl
  | node :: rest => by simp only [unlinedAll, spellAll, spell_unlined tight node, spellAll_unlined tight rest]

end

end Node

namespace Token

/-- A token for a keyword, wherever it may be. -/
def ofKeyword (keyword : Keyword) : Token :=
  ⟨.keyword keyword, keyword.spelling, ⟨"", 0⟩⟩

/-- The words of a line are those of the tokens, and can be told apart. -/
structure Writes (tokens : List Token) (words : List String) : Prop where
  legible : Legible tokens
  plain : ∀ token ∈ tokens, token.kind.isLayout = false
  spelled : tokens.flatMap Token.spelled = words

namespace Writes

variable {tokens : List Token} {words : List String}

theorem nil : Writes [] [] :=
  ⟨.nil, List.forall_mem_nil _, rfl⟩

theorem keyword (writes : Writes tokens words) (keyword : Keyword) :
    Writes (ofKeyword keyword :: tokens) ((ofKeyword keyword).spelled ++ words) where
  legible := .cons rfl (fun next _ => .of_kind (Kind.noConfusion ·) (Kind.noConfusion ·) next) writes.legible
  plain := List.forall_mem_cons.mpr ⟨rfl, writes.plain⟩
  spelled := congrArg _ writes.spelled

theorem led (writes : Writes tokens words) {keyword : Keyword} (single : keyword ≠ .weMeanWord) :
    Writes (ofKeyword keyword :: tokens) (keyword.spelling :: words) := by
  have written := writes.keyword keyword
  rwa [show (ofKeyword keyword).spelled = [keyword.spelling] from if_neg single] at written

theorem name {names : List Token} {name : String} {keyword : Keyword} (legible : Legible names)
    (named : Names names name) (later : Writes (ofKeyword keyword :: tokens) words) :
    Writes (names ++ ofKeyword keyword :: tokens) (Text.wordsOf name ++ words) where
  legible := by
    refine legible.append later.legible ?_
    rintro last final _ ⟨⟩
    have word := named.plain last (List.mem_of_getLast? final)
    exact ⟨fun text => Kind.noConfusion (word.symm.trans text), fun both => Bool.noConfusion both.2⟩
  plain := by
    refine List.forall_mem_append.mpr ⟨fun token member => ?_, later.plain⟩
    rw [named.plain token member]
    rfl
  spelled := by rw [List.flatMap_append, later.spelled, named.spelled, named.wordsOf legible.faithful]

theorem ofWords (writes : Writes tokens words) (span : Span) :
    Token.ofWords span (words.map Text.Word.whole) = tokens.map (moved span) := by
  rw [← writes.spelled, ofWords_spelled span writes.legible writes.plain]

end Writes
end Token

open Expression (Means)

theorem Node.Spoken.writes {node : Node} (spoken : node.Spoken) :
    ∃ tokens, Token.Writes tokens (node.spell false) ∧ Means tokens node.unlined := by
  obtain ⟨words, legible, means⟩ := spoken
  obtain ⟨tokens, fine, loose, spelled⟩ := means.loosened legible
  rw [spell_unlined false node] at spelled
  exact ⟨tokens, ⟨fine, fun token member => Kind.plain_of_isSpeech (loose.speech token member), spelled⟩, loose⟩

/-- The tokens of a statement's own line. The keyword is the one before the condition if it is a conditional. -/
def Node.Heads (keyword : Keyword) (tokens : List Token) : Node → Prop
  | .conditional condition _ _ _ =>
    ∃ token words, tokens = token :: words ∧ token.kind = .keyword keyword ∧ Means words condition.unlined
  | .loop condition _ _ _ =>
    ∃ token words, tokens = token :: words ∧ token.kind = .keyword .whileWord ∧ Means words condition.unlined
  | .definition name params _ _ _ =>
    ∃ token before found between means param, tokens = token :: (before ++ found :: (between ++ [means])) ∧
      token.kind = .keyword .byWord ∧ found.kind = .keyword .ofWord ∧ means.kind = .keyword .weMeanWord ∧
      params = [param] ∧ Token.Names before name ∧ Token.Names between param
  | .assignment target value _ =>
    ∃ the names is words name, tokens = the :: (names ++ is :: words) ∧ the.kind = .keyword .theWord ∧
      is.kind = .keyword .isWord ∧ target.unlined = .identifier name 0 ∧ Token.Names names name ∧
      Means words value.unlined
  | .returns value _ =>
    ∃ token words, tokens = token :: words ∧ token.kind = .keyword .returnsWord ∧
      (Means words value.unlined ∨ words = [] ∧ value.unlined = .literal .nothing 0)
  | .breaks _ => ∃ token, tokens = [token] ∧ token.kind = .keyword .breakWord
  | .call callee arguments line => Means tokens (Node.call callee arguments line).unlined
  | .identifier name line => Means tokens (Node.identifier name line).unlined
  | .literal value line => Means tokens (Node.literal value line).unlined

namespace Node

open Token (Writes)

variable {node : Node} {keyword : Keyword}

theorem heading_returns {value : Node} (spoken : value.Spoken) (lead : String) (line : Nat) :
    (Node.returns value line).heading lead = "returns" :: value.spell false := by
  obtain ⟨words, -, means⟩ := spoken
  cases value with
  | literal literal own =>
    cases literal with
    | nothing =>
      cases means with
      | atom atom => cases atom
    | boolean | number | text => rfl
  | call | identifier | assignment | conditional | loop | breaks | definition | returns => rfl

/-- The line of a statement that can be said is written with tokens of the statement's shape. -/
theorem Sayable.writes (sayable : node.Sayable) (single : keyword ≠ .weMeanWord) :
    ∃ tokens, Writes tokens (node.heading keyword.spelling) ∧ node.Heads keyword tokens := by
  cases node with
  | call | identifier | literal => exact Spoken.writes sayable
  | breaks => exact ⟨_, Writes.nil.keyword .breakWord, _, rfl, rfl⟩
  | conditional condition =>
    obtain ⟨tokens, writes, means⟩ := Spoken.writes sayable
    exact ⟨_, writes.led single, _, _, rfl, rfl, means⟩
  | loop condition =>
    obtain ⟨tokens, writes, means⟩ := Spoken.writes sayable
    exact ⟨_, writes.keyword .whileWord, _, _, rfl, rfl, means⟩
  | returns value =>
    rcases sayable with spoken | ⟨_, rfl⟩
    · obtain ⟨tokens, writes, means⟩ := spoken.writes
      rw [heading_returns spoken]
      exact ⟨_, writes.keyword .returnsWord, _, _, rfl, rfl, .inl means⟩
    · exact ⟨_, Writes.nil.keyword .returnsWord, _, _, rfl, rfl, .inr ⟨rfl, rfl⟩⟩
  | assignment target value =>
    obtain ⟨⟨name, _, rfl, names, legible, named⟩, spoken⟩ := sayable
    obtain ⟨tokens, writes, means⟩ := spoken.writes
    have written := ((writes.keyword .isWord).name legible named).keyword .theWord
    exact ⟨_, written, _, _, _, _, name, rfl, rfl, rfl, rfl, named, means⟩
  | definition name params =>
    obtain ⟨⟨names, legible, named⟩, ⟨param, rfl, between, fine, given⟩, -⟩ := sayable
    have ending := ((Writes.nil.keyword .weMeanWord).name fine given).keyword .ofWord
    have written := (ending.name legible named).keyword .byWord
    refine ⟨.ofKeyword .byWord :: (names ++ .ofKeyword .ofWord :: (between ++ [.ofKeyword .weMeanWord])), ?_,
      _, _, _, _, _, param, rfl, rfl, rfl, rfl, rfl, named, given⟩
    simpa [heading, Token.spelled, Token.ofKeyword, Keyword.spelling] using written

theorem Heads.moved {tokens : List Token} (heads : node.Heads keyword tokens) (span : Span) :
    node.Heads keyword (tokens.map (Token.moved span)) := by
  have keeps := Token.moved_keeps span
  cases node with
  | call | identifier | literal => exact Means.map keeps heads
  | breaks =>
    obtain ⟨token, rfl, kind⟩ := heads
    exact ⟨_, rfl, kind⟩
  | conditional | loop =>
    obtain ⟨token, words, rfl, kind, means⟩ := heads
    exact ⟨_, _, rfl, kind, means.map keeps⟩
  | returns =>
    obtain ⟨token, words, rfl, kind, means | ⟨rfl, nothing⟩⟩ := heads
    · exact ⟨_, _, rfl, kind, .inl (means.map keeps)⟩
    · exact ⟨_, _, rfl, kind, .inr ⟨rfl, nothing⟩⟩
  | assignment =>
    obtain ⟨the, names, is, words, name, rfl, led, isIs, target, named, means⟩ := heads
    refine ⟨the.moved span, _, is.moved span, _, name, ?_, led, isIs, target, keeps.names named, means.map keeps⟩
    simp
  | definition =>
    obtain ⟨token, before, found, between, means, param, rfl, kind, isOf, isMeans, given, named, also⟩ := heads
    refine ⟨token.moved span, _, found.moved span, _, means.moved span, param, ?_, kind, isOf, isMeans, given,
      keeps.names named, keeps.names also⟩
    simp

theorem Heads.ne_nil {tokens : List Token} (heads : node.Heads keyword tokens) : tokens ≠ [] := by
  cases node with
  | call | identifier | literal => exact Means.ne_nil heads
  | breaks | conditional | loop | returns | assignment | definition =>
    rintro rfl
    simp [Heads] at heads

end Node

theorem Kind.isSpeech_keyword {kind : Kind} (speech : kind.isSpeech = true) {keyword : Keyword}
    (other : (Kind.keyword keyword).isSpeech = false) : kind ≠ .keyword keyword := by
  rintro rfl
  cases speech.symm.trans other

namespace Statement

open Traced Expression

variable {words : List Token} {node : Node}

theorem expect_complete (means : Means words node) (anchor : Span) (context : String) :
    (expect words anchor context).Succeeds (·.unlined = node) :=
  succeeds_expect context means.ne_nil (read_complete means anchor)

theorem read_expression (means : Means words node) (stop : Span) (tokens : List Token) :
    (Statement.read ⟨words, stop⟩ tokens).Succeeds (·.unlined = node) tokens := by
  have speech := means.speech
  obtain ⟨first, rest, rfl⟩ := List.exists_cons_of_ne_nil means.ne_nil
  have begins := speech first List.mem_cons_self
  rw [Statement.read]
  refine Parsed.succeeds_tell ?_
  split
  case h_8 =>
    refine Parsed.succeeds_ofTraced ?_
    have uncut : Split.atKind? (.keyword .isWord) (first :: rest) = none :=
      Split.atKind?_eq_none_iff.mpr fun token member => Kind.isSpeech_keyword (speech token member) rfl
    simp only [readPlain, uncut]
    exact read_complete means stop
  all_goals
    rename_i kind
    rw [kind] at begins
    cases begins

theorem read_assignment {the is : Token} {names : List Token} {name : String} (led : the.kind = .keyword .theWord)
    (named : Token.Names names name) (isIs : is.kind = .keyword .isWord) (means : Means words node) (stop : Span)
    (tokens : List Token) :
    (Statement.read ⟨the :: (names ++ is :: words), stop⟩ tokens).Succeeds
      (·.unlined = .assignment (.identifier name 0) node 0) tokens := by
  have cut : Split.atKind? (.keyword .isWord) (the :: names ++ is :: words) = some ⟨the :: names, is, words⟩ := by
    refine Split.atKind?_append words (List.forall_mem_cons.mpr ⟨by simp [led], ?_⟩) isIs
    exact fun token member => by simp [named.plain token member]
  rw [List.cons_append] at cut
  rw [Statement.read]
  dsimp only
  rw [led]
  refine Parsed.succeeds_tell (Parsed.succeeds_ofTraced ?_)
  simp only [readPlain, cut]
  have target : (ofExcept (readName (the :: names) is.span)).Succeeds (·.unlined = .identifier name 0) := by
    refine ⟨.identifier name the.span.line, ?_, rfl⟩
    rw [result_ofExcept, readName, if_pos (by simp [Token.isKeyword, led]), (joinWords_ok_iff _).mpr named]
    rfl
  refine succeeds_bind target fun read same => ?_
  refine succeeds_bind (expect_complete means stop _) fun value given => succeeds_pure ?_
  rw [Node.unlined, same, given]

theorem read_returns {keyword : Token} (kind : keyword.kind = .keyword .returnsWord) (means : Means words node)
    (stop : Span) (tokens : List Token) :
    (Statement.read ⟨keyword :: words, stop⟩ tokens).Succeeds (·.unlined = .returns node 0) tokens := by
  rw [Statement.read]
  dsimp only
  rw [kind]
  refine Parsed.succeeds_tell (Parsed.succeeds_ofTraced ?_)
  rw [readReturns, if_neg (by simpa using means.ne_nil)]
  refine succeeds_bind (read_complete means stop) fun value given => succeeds_pure ?_
  rw [Node.unlined, given]

theorem read_returns_nothing {keyword : Token} (kind : keyword.kind = .keyword .returnsWord) (stop : Span)
    (tokens : List Token) :
    (Statement.read ⟨[keyword], stop⟩ tokens).Succeeds (·.unlined = .returns (.literal .nothing 0) 0) tokens := by
  rw [Statement.read]
  dsimp only
  rw [kind]
  exact Parsed.succeeds_tell (Parsed.succeeds_ofTraced (succeeds_pure rfl))

theorem read_breaks {keyword : Token} (kind : keyword.kind = .keyword .breakWord) (stop : Span) (tokens : List Token) :
    (Statement.read ⟨[keyword], stop⟩ tokens).Succeeds (·.unlined = .breaks 0) tokens := by
  rw [Statement.read]
  dsimp only
  rw [kind]
  exact Parsed.succeeds_tell (Parsed.succeeds_ofTraced ⟨_, rfl, rfl⟩)

theorem readHeading_complete (keyword : Token) {before between : List Token} {found means : Token} {name param : String}
    (isOf : found.kind = .keyword .ofWord) (isMeans : means.kind = .keyword .weMeanWord)
    (named : Token.Names before name) (given : Token.Names between param) :
    readHeading keyword (before ++ found :: (between ++ [means])) = .ok (name, param) := by
  have ofCut : Split.atKind? (.keyword .ofWord) (before ++ found :: (between ++ [means])) =
      some ⟨before, found, between ++ [means]⟩ :=
    Split.atKind?_append _ (fun token member => by simp [named.plain token member]) isOf
  have meanCut : Split.atKind? (.keyword .weMeanWord) (between ++ [means]) = some ⟨between, means, []⟩ :=
    Split.atKind?_append _ (fun token member => by simp [given.plain token member]) isMeans
  simp only [readHeading, ofCut, meanCut, (joinWords_ok_iff _).mpr named, (joinWords_ok_iff _).mpr given]
  rfl

/-- A statement without blocks is read from its line. -/
theorem read_heads {keyword : Keyword} {tokens : List Token} (heads : node.Heads keyword tokens)
    (flat : node.blocks = []) (stop : Span) (rest : List Token) :
    (Statement.read ⟨tokens, stop⟩ rest).Succeeds (·.unlined = node.unlined) rest := by
  cases node with
  | call | identifier | literal => exact read_expression heads stop rest
  | breaks =>
    obtain ⟨token, rfl, kind⟩ := heads
    exact read_breaks kind stop rest
  | assignment target value =>
    obtain ⟨the, names, is, words, name, rfl, led, isIs, same, named, means⟩ := heads
    rw [Node.unlined, same]
    exact read_assignment led named isIs means stop rest
  | returns value =>
    obtain ⟨token, words, rfl, kind, means | ⟨rfl, nothing⟩⟩ := heads
    · exact read_returns kind means stop rest
    · rw [Node.unlined, nothing]
      exact read_returns_nothing kind stop rest
  | conditional | loop | definition => cases flat

end Statement
end Parlance
