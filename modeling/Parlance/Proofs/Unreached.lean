import Parlance.Proofs.LineByLine
import Parlance.Proofs.Node.Calls

/-! What no source leads the parser to. From the tokens of a source the readers are only ever called where a line begins
and with the words of one line. So a block always ends, a sentence always has a first word, and none begins with a step
down. -/
namespace Parlance

open Parlance.Group (stream Ahead)

namespace Reading

/-- Whether these are the words of one of the groups, with what follows it ahead. -/
def Heads (all : List Group) (stop : Span) (words : List Token) (last : Span) (tokens : List Token) : Prop :=
  ∃ group rest, group ∈ all ∧ Ahead all group.level rest ∧ words = group.words ∧ last = group.span ∧
    tokens = stream stop group.level rest

/-- The call is made where a line begins, and with the words of one line. -/
def Stands (all : List Group) (stop : Span) : Reading → Prop
  | .program tokens => ∃ groups, Ahead all 0 groups ∧ tokens = stream stop 0 groups
  | .statement sentence tokens =>
    Heads all stop sentence.words sentence.stop tokens ∨
      ∃ span words, sentence.words = Token.beginIndent span :: words
  | .conditional keyword words last tokens | .loop keyword words last tokens
  | .definition keyword words last tokens => Heads all stop (keyword :: words) last tokens
  | .block _ tokens => ∃ depth groups, Ahead all depth groups ∧ tokens = stream stop depth groups
  | .rest _ tokens => ∃ depth groups, Ahead all (depth + 1) groups ∧ tokens = stream stop (depth + 1) groups

/-- The keyword that the reading begins with, and the words after it on its line. -/
def led? : Reading → Option (Token × List Token)
  | .conditional keyword words _ _ | .loop keyword words _ _ | .definition keyword words _ _ => some (keyword, words)
  | .program _ | .statement .. | .block .. | .rest .. => none

section

open Statement (Known)

variable {stop anchor : Span} {keyword : Token} {words tokens after : List Token} {sentence : Sentence}
  {all groups rest : List Group} {continues : Nat → Bool} {depth : Nat} {group : Group}

theorem next_stands (known : Known all continues) (ahead : Ahead all depth (group :: rest)) (high : depth ≤ group.level)
    (next : Sentence.next? (stream stop depth (group :: rest)) = some (sentence, after)) :
    Stands all stop (.statement sentence after) := by
  have member := ahead.known group List.mem_cons_self
  have sound := known.sound group member
  rcases Nat.lt_or_eq_of_le high with above | rfl
  · have up : group.level = depth + 1 := Nat.le_antisymm ahead.gradual.tail.1 above
    cases (Group.next?_up stop rest sound up).symm.trans next
    exact .inr ⟨group.span, group.words, rfl⟩
  · cases (Group.next?_level stop rest sound).symm.trans next
    exact .inl ⟨group, rest, member, ahead.tail, rfl, rfl, rfl⟩

theorem read_leaves (known : Known all continues) (ahead : Ahead all depth (group :: rest)) (high : depth ≤ group.level)
    (next : Sentence.next? (stream stop depth (group :: rest)) = some (sentence, after)) {node : Node}
    (read : (Statement.read sentence after).result = .ok node) :
    ∃ last, Ahead all depth last ∧ (Statement.read sentence after).rest = stream stop depth last := by
  obtain ⟨_, _, found, reads⟩ := Statement.read_next_follows known ahead high (Statement.follows known _)
  cases found.symm.trans next
  obtain ⟨-, own, last, further, -, takes⟩ := reads.ok node read
  exact ⟨last, further, takes.left⟩

theorem block_leaves (known : Known all continues) (ahead : Ahead all depth groups) {block : List Node}
    (read : (Statement.readBlock anchor (stream stop depth groups)).result = .ok block) :
    ∃ last, Ahead all depth last ∧
      (Statement.readBlock anchor (stream stop depth groups)).rest = stream stop depth last := by
  obtain ⟨-, own, last, takes, lower⟩ :=
    (Statement.readBlock_follows known anchor ahead (Statement.follows known _)).ok block read
  exact ⟨last, (takes.split ▸ ahead).remaining (.inr lower), takes.left⟩

/-- A line that a keyword leads after a block stands at the level of the line that the block belongs to. -/
theorem led_heads (known : Known all continues) (ahead : Ahead all depth groups) {word : Keyword}
    (led : Sentence.led? word (stream stop depth groups) = some (keyword, sentence, after)) :
    Heads all stop (keyword :: sentence.words) sentence.stop after := by
  obtain ⟨group, rest, rfl, rfl, spelled, -, stopped, rfl⟩ := Group.led?_stream ahead.gradual (known.ahead ahead) led
  exact ⟨group, rest, ahead.known group List.mem_cons_self, ahead.tail, spelled.symm, stopped, rfl⟩

theorem Heads.block (heads : Heads all stop words anchor tokens) (announced : Span) :
    Stands all stop (.block announced tokens) := by
  obtain ⟨group, rest, -, ahead, -, -, same⟩ := heads
  exact ⟨group.level, rest, ahead, same⟩

theorem Heads.led (heads : Heads all stop words anchor tokens) (known : Known all continues) {block : List Node}
    (read : (Statement.readBlock anchor tokens).result = .ok block) {word : Keyword}
    (led : Sentence.led? word (Statement.readBlock anchor tokens).rest = some (keyword, sentence, after)) :
    Heads all stop (keyword :: sentence.words) sentence.stop after := by
  obtain ⟨group, rest, -, ahead, -, -, rfl⟩ := heads
  obtain ⟨last, further, left⟩ := block_leaves known ahead read
  rw [left] at led
  exact led_heads known further led

theorem Stands.led {reading : Reading} (stands : reading.Stands all stop) (led : reading.led? = some (keyword, words)) :
    ∃ last tokens, Heads all stop (keyword :: words) last tokens := by
  cases reading with
  | conditional | loop | definition =>
    cases led
    exact ⟨_, _, stands⟩
  | program | statement | block | rest => cases led

/-- Before the end of a block a line begins there, at the level or above. -/
theorem nested_here (ahead : Ahead all (depth + 1) groups) {token : Token} (within : token.kind ≠ .endIndent)
    (same : token :: tokens = stream stop (depth + 1) groups) :
    ∃ group rest, groups = group :: rest ∧ depth + 1 ≤ group.level := by
  rcases ahead.gradual.standing with ⟨-, closed⟩ | ⟨lower, level, below⟩ | ⟨group, rest, spelled, high⟩
  · cases closed
  · cases level
    obtain ⟨span, down⟩ := Group.stream_down stop below
    cases same.trans down
    exact absurd rfl within
  · exact ⟨group, rest, spelled, by omega⟩

theorem Stands.call (known : Known all continues) {caller reading : Reading} (stands : caller.Stands all stop)
    (calls : caller.Calls reading) : reading.Stands all stop := by
  cases calls with
  | statement next =>
    obtain ⟨groups, ahead, rfl⟩ := stands
    cases groups with
    | nil => cases next
    | cons group rest => exact next_stands known ahead (Nat.zero_le _) next
  | further next read =>
    obtain ⟨groups, ahead, rfl⟩ := stands
    cases groups with
    | nil => cases next
    | cons group rest => exact read_leaves known ahead (Nat.zero_le _) next read
  | conditional spelled kind | loop spelled kind | definition spelled kind =>
    rcases stands with heads | ⟨span, words, indented⟩
    · rw [spelled] at heads
      exact heads
    · -- A step up is no keyword, so from such a sentence nothing is called.
      cases spelled.symm.trans indented
      cases kind
  | thenBlock | body | procedure => exact Heads.block stands _
  | elseBlock read led | otherwise read led => exact (Heads.led stands known read led).block _
  | otif read led => exact Heads.led stands known read led
  | inside opened =>
    obtain ⟨depth, groups, ahead, rfl⟩ := stands
    obtain ⟨lower, -, left⟩ := (Statement.consume_meets _ ahead.gradual (known.ahead ahead)).ok _ opened
    exact ⟨depth, groups, ahead.inside lower, left⟩
  | nested within next =>
    obtain ⟨depth, groups, ahead, same⟩ := stands
    obtain ⟨group, rest, rfl, high⟩ := nested_here ahead within same
    exact next_stands known ahead high (same ▸ next)
  | onward within next read =>
    obtain ⟨depth, groups, ahead, same⟩ := stands
    obtain ⟨group, rest, rfl, high⟩ := nested_here ahead within same
    obtain ⟨last, further, left⟩ := read_leaves known ahead high (same ▸ next) read
    exact ⟨depth, last, further, left⟩

end

end Reading

/-- The token stands where a line begins. -/
def Token.BeginsLine (token : Token) (tokens : List Token) : Prop :=
  ∃ before after, tokens = before ++ token :: after ∧ ∀ last ∈ before.getLast?, last.kind = .newline

theorem Group.Rises.beginsLine {depth : Nat} {groups : List Group} {span : Span} (rises : Rises depth groups span)
    (stop : Span) : (Token.beginIndent span).BeginsLine (stream stop depth groups) := by
  induction rises with
  | here rest up => exact ⟨[], _, stream_up stop rest up, nofun⟩
  | @later depth group rest span _ ih =>
    obtain ⟨before, after, split, ended⟩ := ih
    refine ⟨group.tokens depth ++ before, after, ?_, ?_⟩
    · rw [stream, split, List.append_assoc]
    · intro last final
      rw [List.getLast?_append] at final
      cases apart : before.getLast? with
      | none =>
        have same : Token.newline group.span = last := by simpa [apart, Group.tokens] using final
        rw [← same]
        rfl
      | some other =>
        have same : other = last := by simpa [apart] using final
        exact same ▸ ended other apart

/-- A cut is made at an index that the words have. -/
theorem Split.at?_index {wanted : Token → Bool} {words : List Token} {split : Split}
    (cut : at? wanted words = some split) :
    words[split.before.length]? = some split.found ∧ words.take split.before.length = split.before ∧
      words.drop (split.before.length + 1) = split.after := by
  rw [← at?_join cut]
  simp

namespace Source

open Relation (ReflTransGen)

variable {source : Source} {tokens : List Token}

theorem reading_stands (lexed : source.tokens.result = .ok tokens) {reading : Reading}
    (reached : ReflTransGen Reading.Calls (.program tokens) reading) :
    reading.Stands source.groups ⟨source.name, source.lines.length⟩ := by
  induction reached with
  | refl =>
    obtain ⟨rfl, gradual⟩ := tokens_stream lexed
    exact ⟨source.groups, ⟨fun _ member => member, gradual⟩, rfl⟩
  | tail _ calls ih => exact ih.call source.known calls

/-- What the parser never comes to on the tokens of a source. No block is without an end and no input ends early; an
indentation is unexpected only where a line begins with a step up; a value is nothing only after a `returns` that is
alone on its line. Whatever becomes of the program, each sentence that a statement is read from has a first word, which
is no step down, and the words that a keyword leads are those of a row, cut only at words they have. -/
theorem parser_paths_unreached (lexed : source.tokens.result = .ok tokens) :
    (∀ error, (Program.read tokens).result = .error error →
      (∀ span, error ≠ .unterminatedBlock span) ∧ (∀ span, error ≠ .unexpectedEndOfInput span) ∧
        ∀ span, error = .unexpectedIndentation span → (Token.beginIndent span).BeginsLine tokens) ∧
    (∀ program, (Program.read tokens).result = .ok program → ∀ statement ∈ Node.statementsAll program,
      ∀ expression ∈ statement.expressions, ∀ line, .literal .nothing line ∈ expression.nodes →
        statement = .returns (.literal .nothing line) line ∧
          ∃ row ∈ source.rows, row.number = line ∧ (row.words source.name).map Token.kind = [.keyword .returnsWord]) ∧
    (∀ sentence rest, ReflTransGen Reading.Calls (.program tokens) (.statement sentence rest) →
      ∃ first words, sentence.words = first :: words ∧ first.kind ≠ .endIndent) ∧
    (∀ first, .statement first ∈ (Program.read tokens).events → Reading.Heard (.program tokens) first) ∧
    (∀ reading keyword words, ReflTransGen Reading.Calls (.program tokens) reading →
      reading.led? = some (keyword, words) → ∃ row ∈ source.rows, row.words source.name = keyword :: words) ∧
    ∀ wanted words split, Split.at? wanted words = some split →
      words[split.before.length]? = some split.found ∧ words.take split.before.length = split.before ∧
        words.drop (split.before.length + 1) = split.after := by
  refine ⟨?_, ?_, ?_, Program.read_accounts tokens, ?_, fun wanted words split => Split.at?_index⟩
  · intro error failed
    rcases (tokens_read lexed).error error failed with verbal | ⟨span, rfl, rises⟩
    · refine ⟨?_, ?_, ?_⟩
      all_goals
        rintro span rfl
        cases verbal
    · refine ⟨nofun, nofun, ?_⟩
      rintro _ ⟨⟩
      rw [(tokens_stream lexed).1]
      exact rises.beginsLine _
  · intro program read statement member expression part line inside
    obtain ⟨-, proper⟩ := (tokens_read lexed).ok program read
    obtain ⟨same, group, given, number, bare⟩ := (proper statement member).nothing part inside
    obtain ⟨row, found, rfl⟩ := List.mem_map.mp given
    exact ⟨same, row, found, number, bare⟩
  · intro sentence rest reached
    rcases reading_stands lexed reached with ⟨group, after, member, -, words, -, -⟩ | ⟨span, words, indented⟩
    · have sound := source.groups_sound group member
      obtain ⟨first, others, spelled⟩ := List.exists_cons_of_ne_nil sound.spoken
      have plain := sound.plain first (spelled ▸ List.mem_cons_self)
      exact ⟨first, others, words.trans spelled, Kind.ne_of_isLayout plain rfl⟩
    · exact ⟨_, words, indented, (Kind.noConfusion ·)⟩
  · intro reading keyword words reached led
    obtain ⟨_, _, group, after, member, -, spelled, -, -⟩ := (reading_stands lexed reached).led led
    obtain ⟨row, found, rfl⟩ := List.mem_map.mp member
    exact ⟨row, found, spelled.symm⟩

/-- A line that is indented for nothing, and a `returns` that is alone on its line. -/
theorem parser_paths_unreached_indented :
    (∃ (source : Source) (tokens : List Token), source.tokens.result = .ok tokens ∧
      (Program.read tokens).result = .error (.unexpectedIndentation ⟨"s", 2⟩) ∧
      (Token.beginIndent ⟨"s", 2⟩).BeginsLine tokens) ∧
    ∃ (source : Source) (tokens : List Token), source.tokens.result = .ok tokens ∧
      (Program.read tokens).result = .ok [.loop (.literal (.boolean true) 1) [.returns (.literal .nothing 2) 2] [] 1] ∧
      ∃ row ∈ source.rows, row.number = 2 ∧ (row.words source.name).map Token.kind = [.keyword .returnsWord] := by
  constructor
  · have lexed : (Source.mk "s" [some "break", some " break"]).tokens.result =
        .ok [⟨.keyword .breakWord, "break", ⟨"s", 1⟩⟩, .newline ⟨"s", 1⟩, .beginIndent ⟨"s", 2⟩,
          ⟨.keyword .breakWord, "break", ⟨"s", 2⟩⟩, .newline ⟨"s", 2⟩, .endIndent ⟨"s", 2⟩, .eof ⟨"s", 2⟩] := by
      cbv
    have failed : (Program.read [⟨.keyword .breakWord, "break", ⟨"s", 1⟩⟩, .newline ⟨"s", 1⟩, .beginIndent ⟨"s", 2⟩,
        ⟨.keyword .breakWord, "break", ⟨"s", 2⟩⟩, .newline ⟨"s", 2⟩, .endIndent ⟨"s", 2⟩, .eof ⟨"s", 2⟩]).result =
        .error (.unexpectedIndentation ⟨"s", 2⟩) := by
      cbv
    exact ⟨_, _, lexed, failed, ((parser_paths_unreached lexed).1 _ failed).2.2 _ rfl⟩
  · have read : (Source.mk "s" [some "while true", some " returns"]).program.result =
        .ok [.loop (.literal (.boolean true) 1) [.returns (.literal .nothing 2) 2] [] 1] := by
      cbv
    obtain ⟨tokens, lexed, parsed⟩ := program_parsed read
    have bare := (parser_paths_unreached lexed).2.1 _ parsed (.returns (.literal .nothing 2) 2)
      (List.mem_cons_of_mem _ List.mem_cons_self) (.literal .nothing 2) List.mem_cons_self 2 List.mem_cons_self
    exact ⟨_, tokens, lexed, parsed, bare.2⟩

end Source
end Parlance
