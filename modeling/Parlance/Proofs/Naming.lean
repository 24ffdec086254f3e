import Mathlib
import Parlance.Proofs.FirstSplit
import Parlance.Proofs.FrameLaw
import Parlance.Proofs.Machine.Abreast
import Parlance.Proofs.Node.Extension
import Parlance.Proofs.Node.Spell
import Parlance.Proofs.WellFormedRuns

/-! Names as they are bound and as they are read. An assignment and a definition take any plain words for a name; an
expression is split at the operators first. So what is bound can be read and called, unless an operator's word is part of
its name, and then it never can. -/
namespace Parlance

namespace Token

variable {words again : List Token} {name : String}

theorem isOperator_of_sign {token other : Token} (same : token.sign? = other.sign?)
    (operates : token.isOperator = true) : other.isOperator = true := by
  obtain ⟨operator, word⟩ := isOperator_iff.mp operates
  exact isOperator_iff.mpr ⟨operator, sign?_word.mp (same ▸ sign?_word.mpr word)⟩

/-- Words that say the same have operators among them alike. -/
theorem plain_of_signs (same : again.map sign? = words.map sign?)
    (free : ∀ token ∈ words, token.isOperator = false) : ∀ token ∈ again, token.isOperator = false := by
  intro token member
  have inside : token.sign? ∈ words.map sign? := same ▸ List.mem_map_of_mem member
  obtain ⟨other, known, equal⟩ := List.mem_map.mp inside
  refine Bool.eq_false_iff.mpr fun operates => ?_
  exact Bool.false_ne_true ((free other known).symm.trans (isOperator_of_sign equal.symm operates))

theorem Names.repeated (names : Names words name) (same : again.map sign? = words.map sign?) : Names again name := by
  have said : words.map sign? = ((words.map Token.lexeme).map (.bare ∘ .word)).map some := by
    rw [List.map_map, List.map_map]
    refine List.map_congr_left fun token member => ?_
    simp [sign?, names.plain token member]
  obtain ⟨lexemes, kinds⟩ := words_of_signs (same.trans said)
  refine ⟨?_, kinds, by rw [lexemes, names.joined]⟩
  rintro rfl
  exact names.spoken (List.map_eq_nil_iff.mp lexemes.symm)

end Token

namespace Expression

open Token

variable {the found : Token} {words again rest : List Token} {anchor : Span} {name : String} {node : Node}

/-- Wherever the words are said again after `the`, they are read as the name if no operator is among them, and not at all
otherwise. -/
def Named (words : List Token) (name : String) : Prop :=
  ∀ the again anchor node, the.kind = .keyword .theWord → again.map sign? = words.map sign? →
    ((read (the :: again) anchor).result = .ok node ↔
      (∀ token ∈ words, token.isOperator = false) ∧ node = .identifier name the.span.line)

/-- The arguments of a call, as the words after its `of` give them. -/
def Given (rest : List Token) (anchor : Span) (arguments : List Node) : Prop :=
  rest = [] ∧ arguments = [] ∨
    rest ≠ [] ∧ ∃ argument, (read rest anchor).result = .ok argument ∧ arguments = [argument]

/-- Wherever the words are said again between `the` and `of`, what they name is called, unless an operator is among
them. -/
def Called (words : List Token) (name : String) : Prop :=
  ∀ the again found rest anchor node, the.kind = .keyword .theWord → again.map sign? = words.map sign? →
    found.kind = .keyword .ofWord →
    ((read (the :: (again ++ found :: rest)) anchor).result = .ok node ↔
      (∀ token ∈ words, token.isOperator = false) ∧
        ∃ arguments, Given rest anchor arguments ∧
          node = .call (.identifier name the.span.line) arguments the.span.line)

theorem noOf_name (led : the.kind = .keyword .theWord) (names : Token.Names words name) : NoOf (the :: words) := by
  refine List.forall_mem_cons.mpr ⟨by simp [led], fun token member => ?_⟩
  simp [names.plain token member]

theorem read_free_name (led : the.kind = .keyword .theWord) (names : Token.Names words name)
    (free : ∀ token ∈ words, token.isOperator = false) (anchor : Span) :
    (read (the :: words) anchor).result = .ok (.identifier name the.span.line) := by
  have uncut : Split.atOperator? (the :: words) = none := by
    refine Split.atOperator?_eq_none.mpr (List.forall_mem_cons.mpr ⟨?_, free⟩)
    refine Bool.eq_false_iff.mpr fun operates => ?_
    cases led.symm.trans (isOperator_kind operates)
  rw [result_whole anchor (Split.atKind?_eq_none_iff.mpr (noOf_name led names)) uncut, if_pos (by simp [isKeyword, led]),
    readName, if_pos (by simp [isKeyword, led]), (joinWords_ok_iff anchor).mpr names]
  rfl

/-- After an operator in a name there are only words, so there is no operand. -/
theorem free_of_read (led : the.kind = .keyword .theWord) (names : Token.Names words name)
    (given : (read (the :: words) anchor).result = .ok node) : ∀ token ∈ words, token.isOperator = false := by
  have means := read_sound (the :: words) anchor node given
  intro token member
  refine Bool.eq_false_iff.mpr fun operates => ?_
  obtain ⟨front, back, rfl⟩ := List.append_of_mem member
  have grounded := means.grounded (noOf_name led names)
  obtain ⟨passed, other, further, rfl, kind, -⟩ := grounded (the :: front) token back rfl operates
  exact kind (names.plain other (by simp))

theorem named_of_names (names : Token.Names words name) : Named words name := by
  intro the again anchor node led same
  have repeats := names.repeated same
  constructor
  · intro given
    have free := free_of_read led repeats given
    cases (read_free_name led repeats free anchor).symm.trans given
    exact ⟨plain_of_signs same.symm free, rfl⟩
  · rintro ⟨free, rfl⟩
    exact read_free_name led repeats (plain_of_signs same free) anchor

theorem called_of_names (names : Token.Names words name) : Called words name := by
  intro the again found rest anchor node led same isOf
  have repeats := names.repeated same
  have noOf := noOf_name led repeats
  have long : 2 ≤ (the :: again).length := by
    have some := List.length_pos_iff.mpr repeats.spoken
    simp only [List.length_cons]
    omega
  constructor
  · intro given
    obtain ⟨first, callee, arguments, head, rfl, -, named, none, some⟩ := read_parted isOf noOf given
    cases head
    obtain ⟨free, rfl⟩ := (named_of_names names the again found.span callee led same).mp (named long)
    refine ⟨free, arguments, ?_, rfl⟩
    by_cases empty : rest = []
    · exact .inl ⟨empty, none empty⟩
    · exact .inr ⟨empty, some empty⟩
  · rintro ⟨free, arguments, given, rfl⟩
    have cut := Split.atKind?_append rest noOf isOf
    have callee := read_free_name led repeats (plain_of_signs same free) found.span
    have short : readShortHead? (the :: again) found.span = none := by
      obtain ⟨second, more, rfl⟩ := List.exists_cons_of_ne_nil repeats.spoken
      rfl
    rw [List.cons_append] at cut
    rw [result_called anchor cut, short, Option.getD_none, callee]
    rcases given with ⟨rfl, rfl⟩ | ⟨some, argument, read, rfl⟩
    · rfl
    · rw [if_neg (by simpa using some), read]
      rfl

end Expression

/-! ### Statements that bind -/

namespace Statement

variable {the is keyword : Token} {words rest : List Token} {stop : Span} {name : String} {node : Node}

theorem read_the (led : the.kind = .keyword .theWord) (words : List Token) (stop : Span) (tokens : List Token) :
    (Statement.read ⟨the :: words, stop⟩ tokens).result = (readPlain the (the :: words) stop).result ∧
      (Statement.read ⟨the :: words, stop⟩ tokens).rest = tokens := by
  rw [Statement.read]
  dsimp only
  rw [led]
  exact ⟨rfl, rfl⟩

theorem readPlain_assignment (led : the.kind = .keyword .theWord) (isIs : is.kind = .keyword .isWord)
    (names : Token.Names words name) :
    (readPlain the (the :: (words ++ is :: rest)) stop).result =
      (Expression.expect rest stop "after 'is'").result.map
        (.assignment (.identifier name the.span.line) · the.span.line) := by
  have cut : Split.atKind? (.keyword .isWord) (the :: words ++ is :: rest) = some ⟨the :: words, is, rest⟩ := by
    refine Split.atKind?_append rest (List.forall_mem_cons.mpr ⟨by simp [led], ?_⟩) isIs
    exact fun token member => by simp [names.plain token member]
  rw [List.cons_append] at cut
  have target : Expression.readName (the :: words) is.span = .ok (.identifier name the.span.line) := by
    rw [Expression.readName, if_pos (by simp [Token.isKeyword, led]), (Expression.joinWords_ok_iff _).mpr names]
    rfl
  simp only [readPlain, cut, target, Traced.result_bind, Traced.result_ofExcept, Traced.result_pure]
  cases (Expression.expect rest stop "after 'is'").result <;> rfl

theorem assignment_ok {tokens : List Token} (led : the.kind = .keyword .theWord) (isIs : is.kind = .keyword .isWord)
    (names : Token.Names words name)
    (given : (Statement.read ⟨the :: (words ++ is :: rest), stop⟩ tokens).result = .ok node) :
    ∃ value, (Expression.read rest stop).result = .ok value ∧
      node = .assignment (.identifier name the.span.line) value the.span.line := by
  rw [(read_the led _ stop tokens).1, readPlain_assignment led isIs names, Expression.expect] at given
  split at given
  · cases given
  · cases read : (Expression.read rest stop).result with
    | error error =>
      rw [read] at given
      cases given
    | ok value =>
      rw [read] at given
      cases given
      exact ⟨value, rfl, rfl⟩

theorem readPlain_name (led : the.kind = .keyword .theWord) (names : Token.Names words name)
    (free : ∀ token ∈ words, token.isOperator = false) :
    (readPlain the (the :: words) stop).result = .ok (.identifier name the.span.line) := by
  have uncut : Split.atKind? (.keyword .isWord) (the :: words) = none := by
    refine Split.atKind?_eq_none_iff.mpr (List.forall_mem_cons.mpr ⟨by simp [led], ?_⟩)
    exact fun token member => by simp [names.plain token member]
  simp only [readPlain, uncut]
  exact Expression.read_free_name led names free stop

theorem readDefinition_ok (led : keyword.kind = .keyword .byWord) (tokens : List Token) :
    (Statement.read ⟨keyword :: words, stop⟩ tokens).Ensures fun node =>
      ∃ name param body, readHeading keyword words = .ok (name, param) ∧
        node = .definition name [param] body 0 keyword.span.line := by
  rw [Statement.read]
  dsimp only
  rw [led]
  refine Parsed.ensures_tell ?_
  dsimp only
  rw [readDefinition]
  split
  · exact Parsed.ensures_fail _
  · rename_i name param heading
    exact Parsed.ensures_tell (Parsed.ensures_map fun body _ => ⟨name, param, body, heading, rfl⟩)

end Statement

/-- A statement without blocks leaves the lines after its own. -/
theorem Program.readStatements_flat {words : List Token} {node : Node} (span : Span) (rest : List Token)
    (spoken : words ≠ []) (plain : ∀ token ∈ words, token.kind.isLayout = false)
    (given : (Statement.read ⟨words, span⟩ rest).result = .ok node)
    (left : (Statement.read ⟨words, span⟩ rest).rest = rest) :
    (Program.readStatements (words ++ Token.newline span :: rest)).result =
      (Program.readStatements rest).result.map (node :: ·) := by
  rw [readStatements_line span rest spoken plain]
  simp only [Parsed.andThen, given]
  show (Program.readStatements (Statement.read ⟨words, span⟩ rest).rest).result.map _ = _
  rw [left]

theorem Source.program_assigned {source : Source} {the is again : Token} {words rest repeated : List Token}
    {stop pause last : Span} {name : String} {value : Node} (led : the.kind = .keyword .theWord)
    (isIs : is.kind = .keyword .isWord) (names : Token.Names words name)
    (given : (Expression.read rest stop).result = .ok value) (ledAgain : again.kind = .keyword .theWord)
    (same : repeated.map Token.sign? = words.map Token.sign?) (free : ∀ token ∈ words, token.isOperator = false)
    (lexed : source.tokens.result = .ok (the :: (words ++ is :: rest) ++
      .newline stop :: (again :: repeated ++ [.newline pause, .eof last]))) :
    source.program.result =
      .ok [.assignment (.identifier name the.span.line) value the.span.line, .identifier name again.span.line] := by
  have repeats := names.repeated same
  have means := Expression.read_sound rest stop value given
  have expected : (Expression.expect rest stop "after 'is'").result = .ok value := by
    rw [Expression.expect, if_neg (by simpa using means.ne_nil), given]
  have first (tokens : List Token) := Statement.read_the led (words ++ is :: rest) stop tokens
  have second (tokens : List Token) := Statement.read_the ledAgain repeated pause tokens
  rw [Statement.readPlain_assignment led isIs names, expected] at first
  rw [Statement.readPlain_name ledAgain repeats (Token.plain_of_signs same free)] at second
  have named : ∀ token ∈ again :: repeated, token.kind.isLayout = false :=
    List.forall_mem_cons.mpr ⟨by simp [ledAgain, Kind.isLayout], fun token member => by
      simp [repeats.plain token member, Kind.isLayout]⟩
  have plain : ∀ token ∈ the :: (words ++ is :: rest), token.kind.isLayout = false := by
    refine List.forall_mem_cons.mpr ⟨by simp [led, Kind.isLayout], List.forall_mem_append.mpr ⟨?_, ?_⟩⟩
    · exact fun token member => by simp [names.plain token member, Kind.isLayout]
    · refine List.forall_mem_cons.mpr ⟨by simp [isIs, Kind.isLayout], fun token member => ?_⟩
      exact Kind.plain_of_isSpeech (means.speech token member)
  rw [Source.program_result lexed, Program.readStatements_flat stop _ (List.cons_ne_nil _ _) plain (first _).1 (first _).2,
    Program.readStatements_flat pause _ (List.cons_ne_nil _ _) named (second _).1 (second _).2,
    Program.readStatements_stop _ rfl]
  rfl

/-! ### What is bound is found -/

theorem Arena.lookup_define {arena : Arena} {scope : ScopeId} (live : arena.Live scope) (name : String) (value : Value) :
    (arena.define scope name value).lookup scope name = some value := by
  obtain ⟨found, known⟩ := live.found
  have size : 0 < (arena.define scope name value).slots.size := by
    simpa [Arena.define] using Nat.zero_lt_of_lt live.1
  obtain ⟨depth, deep⟩ := Nat.exists_eq_add_of_lt size
  rw [Arena.lookup, deep]
  simp [Arena.lookupWithin, Arena.get?_define, known, Bindings.find?_insert]

namespace Config

variable {session middle after : Session} {scope : ScopeId} {value : Node} {result : Value} {name : String}

theorem ends_named (found : session.lookup scope name = some result) (line : Nat) :
    Ends ⟨.eval (.identifier name line) scope, [], session⟩ (.ok result)
      (session.note (.evaluating (.identifier name line))) := by
  have known : (session.note (.evaluating (.identifier name line))).lookup scope name = some result := found
  refine (ends_running rfl).mpr ?_
  simp only [eval, known]
  exact (ends_control (.ok result) _).mpr ⟨rfl, rfl⟩

theorem ends_assignment {own line : Nat}
    (valued : Ends ⟨.eval value scope, [], session.note (.evaluating (.assignment (.identifier name own) value line))⟩
      (.ok result) middle) :
    Ends ⟨.eval (.assignment (.identifier name own) value line) scope, [], session⟩ (.ok .nothing)
      (middle.define scope name result) := by
  refine (ends_running rfl).mpr (ends_frame.mpr ⟨_, _, valued, ?_⟩)
  exact (ends_control (.ok .nothing) _).mpr ⟨rfl, rfl⟩

/-- The value that was assigned is what the name gives next. -/
theorem ends_assigned (tidy : session.arena.Tidy) (live : session.arena.Live scope) (quiet : value.isQuiet = true)
    (ends : Ends ⟨.eval value scope, [], session⟩ (.ok result) after) (name : String) (own line other : Nat) :
    ∃ last, Ends ⟨.block [.assignment (.identifier name own) value line, .identifier name other] scope, [], session⟩
      (.ok result) last := by
  have abreast : Config.Abreast Eq ⟨.eval value scope, [], session⟩
      ⟨.eval value scope, [], session.note (.evaluating (.assignment (.identifier name own) value line))⟩ :=
    ⟨rfl, rfl, rfl, rfl⟩
  obtain ⟨middle, valued, same⟩ := abreast.ends Streams.congruent_eq ends
  have alive : middle.arena.Live scope := by
    obtain ⟨fuel, ran⟩ := ends
    rw [same.arena]
    exact (Session.eval_frame tidy live ran scope live fun _ => quiet).1
  have found : (middle.define scope name result).lookup scope name = some result :=
    Arena.lookup_define alive name result
  have named : Ends ⟨.block [.identifier name other] scope, [], middle.define scope name result⟩ (.ok result)
      ((middle.define scope name result).note (.evaluating (.identifier name other))) :=
    ends_block_cons.mpr ⟨_, _, ends_named found other, rfl, rfl⟩
  exact ⟨_, ends_block_cons.mpr ⟨_, _, ends_assignment valued, named⟩⟩

end Config

namespace Session

/-- A program of an assignment and its name gives the value that the expression has. -/
theorem execute_assigned {session after : Session} {source : Source} (tidy : session.arena.Tidy) {value : Node}
    (quiet : value.isQuiet = true) {name : String} {own line other : Nat}
    (read : source.program.result = .ok [.assignment (.identifier name own) value line, .identifier name other])
    {result : Value} (ends : Config.Ends ⟨.eval value Arena.root, [], session⟩ (.ok result) after) :
    ∃ fuel last, session.execute fuel source = some (.ok result, last) := by
  let started := (session.launch source [.assignment (.identifier name own) value line, .identifier name other]).session
  have abreast : Config.Abreast Eq ⟨.eval value Arena.root, [], session⟩ ⟨.eval value Arena.root, [], started⟩ :=
    ⟨rfl, rfl, rfl, rfl⟩
  obtain ⟨middle, valued, -⟩ := abreast.ends Streams.congruent_eq ends
  have arena : started.arena = session.arena := rfl
  obtain ⟨last, fuel, ran⟩ := Config.ends_assigned (arena ▸ tidy) (arena ▸ tidy.rooted) quiet valued name own line other
  have launched : session.launch source [.assignment (.identifier name own) value line, .identifier name other] =
      ⟨.block [.assignment (.identifier name own) value line, .identifier name other] Arena.root, [], started⟩ := by
    simp only [started, launch, load, Node.numberAll, Node.number, Node.number_of_quiet _ value quiet]
  refine ⟨fuel, last, ?_⟩
  rw [execute_launch session fuel read, launched, ran]
  rfl

end Session

open Config Expression in
/-- Every name that can be bound can be read and called, if no operator is among its words, and otherwise neither. What an
assignment binds is read as its target wherever its words follow `the`, so that after the assignment the name gives the
value, in every scope and at every moment of a session. A definition's name and its parameter are read in the same way, and
the name between `the` and `of` is called. -/
theorem bound_names_read :
    (∀ the words is rest stop tokens node, the.kind = .keyword .theWord → is.kind = .keyword .isWord → words ≠ [] →
      (∀ token ∈ words, token.kind = .word) →
      (Statement.read ⟨the :: (words ++ is :: rest), stop⟩ tokens).result = .ok node →
      ∃ name value, Token.Names words name ∧ (read rest stop).result = .ok value ∧
        node = .assignment (.identifier name the.span.line) value the.span.line ∧ Named words name ∧ Called words name ∧
        ∀ permits moment result after, Moment.Reachable permits moment →
          (∀ scope line, moment.arena.Live scope →
            Ends ⟨.eval value scope, [], moment.phase.session⟩ (.ok result) after →
            ∃ last, Ends ⟨.block [node, .identifier name line] scope, [], moment.phase.session⟩ (.ok result) last) ∧
          ∀ (source : Source) again repeated pause last, (∀ token ∈ words, token.isOperator = false) →
            again.kind = .keyword .theWord → repeated.map Token.sign? = words.map Token.sign? →
            source.tokens.result = .ok (the :: (words ++ is :: rest) ++
              .newline stop :: (again :: repeated ++ [.newline pause, .eof last])) →
            Ends ⟨.eval value Arena.root, [], moment.phase.session⟩ (.ok result) after →
            ∃ fuel final, moment.phase.session.execute fuel source = some (.ok result, final)) ∧
    ∀ keyword words stop tokens node, keyword.kind = .keyword .byWord →
      (Statement.read ⟨keyword :: words, stop⟩ tokens).result = .ok node →
      ∃ before found between means name param body, words = before ++ found :: (between ++ [means]) ∧
        found.kind = .keyword .ofWord ∧ means.kind = .keyword .weMeanWord ∧
        node = .definition name [param] body 0 keyword.span.line ∧ Token.Names before name ∧ Token.Names between param ∧
        Named before name ∧ Called before name ∧ Named between param := by
  constructor
  · intro the words is rest stop tokens node led isIs spoken plain given
    have names : Token.Names words (" ".intercalate (words.map Token.lexeme)) := ⟨spoken, plain, rfl⟩
    obtain ⟨value, read, rfl⟩ := Statement.assignment_ok led isIs names given
    refine ⟨_, value, names, read, rfl, named_of_names names, called_of_names names, ?_⟩
    intro permits moment result after reached
    obtain ⟨owned, hosts⟩ := reached.sound.hosts
    have tidy : moment.phase.session.arena.Tidy := hosts.tidy
    have quiet := read_quiet rest stop value read
    refine ⟨fun scope line live ends => ends_assigned tidy live quiet ends _ _ _ line, ?_⟩
    intro source again repeated pause last free ledAgain same lexed ends
    have program := Source.program_assigned led isIs names read ledAgain same free lexed
    exact Session.execute_assigned tidy quiet program ends
  · intro keyword words stop tokens node led given
    obtain ⟨name, param, body, heading, rfl⟩ := Statement.readDefinition_ok led tokens node given
    obtain ⟨before, found, between, means, rfl, isOf, isMeans, named, parameter⟩ := Statement.readHeading_ok heading
    exact ⟨before, found, between, means, name, param, body, rfl, isOf, isMeans, rfl, named, parameter,
      named_of_names named, called_of_names named, named_of_names parameter⟩

set_option maxRecDepth 20000 in
/-- A name of two words, said again with more space between them. -/
theorem bound_names_read_spaced :
    ∃ fuel last, (Session.start (.ofInput []) .silent).execute fuel
      ⟨"s", [some "the first one is true", some "the  first   one"]⟩ = some (.ok (.boolean true), last) := by
  have lexed : (Source.mk "s" [some "the first one is true", some "the  first   one"]).tokens.result = .ok
      [⟨.keyword .theWord, "the", ⟨"s", 1⟩⟩, ⟨.word, "first", ⟨"s", 1⟩⟩, ⟨.word, "one", ⟨"s", 1⟩⟩,
        ⟨.keyword .isWord, "is", ⟨"s", 1⟩⟩, ⟨.keyword .trueWord, "true", ⟨"s", 1⟩⟩, .newline ⟨"s", 1⟩,
        ⟨.keyword .theWord, "the", ⟨"s", 2⟩⟩, ⟨.word, "first", ⟨"s", 2⟩⟩, ⟨.word, "one", ⟨"s", 2⟩⟩, .newline ⟨"s", 2⟩,
        .eof ⟨"s", 2⟩] := by
    cbv
  have read : (Statement.read ⟨[⟨.keyword .theWord, "the", ⟨"s", 1⟩⟩, ⟨.word, "first", ⟨"s", 1⟩⟩,
      ⟨.word, "one", ⟨"s", 1⟩⟩, ⟨.keyword .isWord, "is", ⟨"s", 1⟩⟩, ⟨.keyword .trueWord, "true", ⟨"s", 1⟩⟩], ⟨"s", 1⟩⟩
      []).result = .ok (.assignment (.identifier "first one" 1) (.literal (.boolean true) 1) 1) := by
    cbv
  obtain ⟨name, value, -, -, same, -, -, runs⟩ := bound_names_read.1 ⟨.keyword .theWord, "the", ⟨"s", 1⟩⟩
    [⟨.word, "first", ⟨"s", 1⟩⟩, ⟨.word, "one", ⟨"s", 1⟩⟩] ⟨.keyword .isWord, "is", ⟨"s", 1⟩⟩
    [⟨.keyword .trueWord, "true", ⟨"s", 1⟩⟩] ⟨"s", 1⟩ [] _ rfl rfl (by decide) (by decide) read
  cases same
  obtain ⟨-, executes⟩ := runs (fun _ => True) (.start (.ofInput []) .silent) (.boolean true) _ ⟨_, _, .refl⟩
  exact executes _ ⟨.keyword .theWord, "the", ⟨"s", 2⟩⟩ [⟨.word, "first", ⟨"s", 2⟩⟩, ⟨.word, "one", ⟨"s", 2⟩⟩] ⟨"s", 2⟩
    ⟨"s", 2⟩ (by decide) rfl rfl lexed ⟨2, rfl⟩

set_option maxRecDepth 20000 in
/-- An assignment to a name with an operator in it is read, and the name by itself is not. -/
theorem bound_names_read_operator :
    (Source.mk "s" [some "the a plus b is true"]).program.result =
        .ok [.assignment (.identifier "a plus b" 1) (.literal (.boolean true) 1) 1] ∧
      ∃ error, (Source.mk "s" [some "the a plus b is true", some "the a plus b"]).program.result =
        .error (.ungrammatical error) := by
  refine ⟨by cbv, .unexpectedToken ⟨"s", 2⟩ "word 'b'", by cbv⟩

end Parlance
