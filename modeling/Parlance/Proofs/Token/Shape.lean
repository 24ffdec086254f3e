import Mathlib.Data.List.Forall2
import Parlance.Proofs.Token.Indentation

/-! The shape of the tokens of a source. Each row gives a stretch of them: a change of level, words, and the end of the
line. Levels are opened and closed in balance, and how many are open where a row's words begin is the row's level. -/
namespace Parlance

namespace Token

def begins (tokens : List Token) : Nat :=
  tokens.countP (·.kind == .beginIndent)

def ends (tokens : List Token) : Nat :=
  tokens.countP (·.kind == .endIndent)

/-- How many levels are open after a token; nothing if it closes one and none is open. -/
def deepen? (level : Nat) (token : Token) : Option Nat :=
  if token.kind = .beginIndent then some (level + 1)
  else if token.kind = .endIndent then if level = 0 then none else some (level - 1)
  else some level

def depth? (level : Nat) (tokens : List Token) : Option Nat :=
  tokens.foldlM deepen? level

theorem depth?_append (level : Nat) (first second : List Token) :
    depth? level (first ++ second) = (depth? level first).bind (depth? · second) :=
  List.foldlM_append

theorem depth?_count {level last : Nat} {tokens : List Token} (counted : depth? level tokens = some last) :
    begins tokens + level = ends tokens + last := by
  induction tokens generalizing level with
  | nil =>
    cases counted
    rfl
  | cons token rest ih =>
    obtain ⟨middle, step, further⟩ := Option.bind_eq_some_iff.mp counted
    have later := ih further
    simp only [begins, ends, List.countP_cons, beq_iff_eq] at later ⊢
    unfold deepen? at step
    split_ifs at step ⊢ <;> simp_all <;> omega

theorem depth?_plain (level : Nat) {tokens : List Token}
    (plain : ∀ token ∈ tokens, token.kind ≠ .beginIndent ∧ token.kind ≠ .endIndent) :
    depth? level tokens = some level := by
  induction tokens with
  | nil => rfl
  | cons token rest ih =>
    obtain ⟨here, later⟩ := List.forall_mem_cons.mp plain
    simpa [depth?, deepen?, here] using ih later

theorem depth?_ends (span : Span) (level steps : Nat) :
    depth? (level + steps) (List.replicate steps (endIndent span)) = some level := by
  induction steps with
  | zero => rfl
  | succ steps ih => simpa [depth?, deepen?, endIndent, List.replicate_succ, ← Nat.add_assoc] using ih

/-- Where the tokens can be counted to their end, so can any first part of them. -/
theorem ends_le_begins {last : Nat} {tokens part : List Token} (counted : depth? 0 tokens = some last)
    (first : part <+: tokens) : ends part ≤ begins part := by
  obtain ⟨rest, rfl⟩ := first
  rw [depth?_append] at counted
  obtain ⟨middle, partly, _⟩ := Option.bind_eq_some_iff.mp counted
  have := depth?_count partly
  omega

end Token

/-- The tokens of one row: a change of level, words, and the end of the line. -/
structure Stretch where
  opening : List Token
  words : List Token
  ending : Token
deriving DecidableEq, Repr

namespace Stretch

def tokens (stretch : Stretch) : List Token :=
  stretch.opening ++ stretch.words ++ [stretch.ending]

structure Covers (name : String) (stretch : Stretch) (row : Row) : Prop where
  opening : (∃ steps, stretch.opening = List.replicate steps (Token.endIndent (row.span name))) ∨
    stretch.opening = [Token.beginIndent (row.span name)]
  spoken : stretch.words ≠ []
  plain : ∀ token ∈ stretch.words, token.kind.isLayout = false
  text_last : ∀ token ∈ stretch.words.dropLast, token.kind ≠ .text
  ending : stretch.ending = Token.newline (row.span name)
  numbered : ∀ token ∈ stretch.tokens, token.span = row.span name

end Stretch

namespace Group

def stretch (before : Nat) (group : Group) : Stretch :=
  ⟨opening group.span before group.level, group.words, Token.newline group.span⟩

def stretches (level : Nat) : List Group → List Stretch
  | [] => []
  | group :: rest => group.stretch level :: stretches group.level rest

theorem stream_stretches (stop : Span) (level : Nat) (groups : List Group) :
    stream stop level groups = (stretches level groups).flatMap Stretch.tokens ++
      List.replicate ((groups.map Group.level).getLastD level) (Token.endIndent stop) ++ [Token.eof stop] := by
  induction groups generalizing level with
  | nil => rfl
  | cons group rest ih =>
    rw [stream, ih, stretches, List.flatMap_cons, List.map_cons, List.getLastD_cons]
    simp [tokens, stretch, Stretch.tokens]

theorem depth?_opening (span : Span) {before after : Nat} (gradual : after ≤ before + 1) :
    Token.depth? before (opening span before after) = some after := by
  unfold opening
  split_ifs with higher
  · have next : after = before + 1 := by omega
    subst next
    rfl
  · obtain ⟨steps, rfl⟩ := Nat.exists_eq_add_of_le (Nat.not_lt.mp higher)
    rw [Nat.add_sub_cancel_left]
    exact Token.depth?_ends span after steps

theorem depth?_stretch {before : Nat} {group : Group} (sound : group.Sound) (gradual : group.level ≤ before + 1) :
    Token.depth? before (group.stretch before).tokens = some group.level := by
  have words : Token.depth? group.level group.words = some group.level := by
    apply Token.depth?_plain
    intro token member
    have plain := sound.plain token member
    exact ⟨Kind.ne_of_isLayout plain rfl, Kind.ne_of_isLayout plain rfl⟩
  simp only [Stretch.tokens, stretch, Token.depth?_append, depth?_opening group.span gradual, Option.bind_some, words]
  rfl

theorem depth?_stream (stop : Span) {level : Nat} {groups : List Group} (sound : ∀ group ∈ groups, group.Sound)
    (gradual : Gradual level groups) : Token.depth? level (stream stop level groups) = some 0 := by
  induction groups generalizing level with
  | nil =>
    have closed := Token.depth?_ends stop 0 level
    rw [Nat.zero_add] at closed
    rw [stream, Token.depth?_append, closed]
    rfl
  | cons group rest ih =>
    obtain ⟨here, later⟩ := List.forall_mem_cons.mp sound
    have step := depth?_stretch here gradual.tail.1
    rw [stream, Token.depth?_append]
    change (Token.depth? level (group.stretch level).tokens).bind _ = _
    rw [step]
    exact ih later gradual.tail.2

/-- Counting up to a group's words gives its level. -/
theorem depth?_stretches {level : Nat} {groups : List Group} (sound : ∀ group ∈ groups, group.Sound)
    (gradual : Gradual level groups) {earlier later : List Stretch} {stretch : Stretch}
    (split : stretches level groups = earlier ++ stretch :: later) :
    ∃ group, groups[earlier.length]? = some group ∧
      Token.depth? level (earlier.flatMap Stretch.tokens ++ stretch.opening) = some group.level := by
  induction groups generalizing level earlier with
  | nil => simp [stretches] at split
  | cons group rest ih =>
    obtain ⟨here, further⟩ := List.forall_mem_cons.mp sound
    obtain ⟨rise, rising⟩ := gradual.tail
    cases earlier with
    | nil =>
      cases split
      exact ⟨group, rfl, depth?_opening group.span rise⟩
    | cons first earlier =>
      rw [stretches, List.cons_append, List.cons.injEq] at split
      obtain ⟨rfl, split⟩ := split
      obtain ⟨found, place, counted⟩ := ih further rising split
      refine ⟨found, by simpa using place, ?_⟩
      rw [List.flatMap_cons, List.append_assoc, Token.depth?_append, depth?_stretch here rise]
      exact counted

theorem stretch_covers (name : String) (unit : Option Indent) (before : Nat) {row : Row}
    (sound : (row.group name unit).Sound) : ((row.group name unit).stretch before).Covers name row where
  opening := by
    unfold stretch Group.opening
    split_ifs
    · exact .inr rfl
    · exact .inl ⟨_, rfl⟩
  spoken := sound.spoken
  plain := sound.plain
  text_last := sound.text_last
  ending := rfl
  numbered := by
    intro token member
    simp only [Stretch.tokens, List.mem_append, List.mem_singleton] at member
    rcases member with (shifting | word) | rfl
    · unfold stretch Group.opening at shifting
      split_ifs at shifting
      · rw [List.mem_singleton.mp shifting]
        rfl
      · rw [(List.mem_replicate.mp shifting).2]
        rfl
    · exact sound.spans token word
    · rfl

theorem stretches_cover (name : String) (unit : Option Indent) (level : Nat) {rows : List Row}
    (visible : ∀ row ∈ rows, Text.allBlank row.text = false) :
    List.Forall₂ (Stretch.Covers name) (stretches level (rows.map (Row.group name unit))) rows := by
  induction rows generalizing level with
  | nil => exact .nil
  | cons row rest ih =>
    obtain ⟨here, later⟩ := List.forall_mem_cons.mp visible
    exact .cons (stretch_covers name unit level (Row.group_sound name unit here)) (ih _ later)

end Group

namespace Layout

theorem lines_readable {name : String} {count : Nat} {layout : Layout} {lines : List RawLine} {tokens : List Token}
    (read : (Layout.lines name count layout lines).result = .ok tokens) : ∀ line ∈ lines, line.isSome := by
  induction lines generalizing count layout tokens with
  | nil => simp
  | cons line rest ih =>
    cases line with
    | none => cases read
    | some text =>
      rw [Layout.lines, Traced.result_bind] at read
      cases first : (layout.line ⟨name, count + 1⟩ text.toList).result with
      | error error =>
        rw [first] at read
        cases read
      | ok placed =>
        rw [first] at read
        simp only [Except.bind, Traced.result_map] at read
        cases later : (Layout.lines name (count + 1) placed.1 rest).result with
        | error error =>
          rw [later] at read
          cases read
        | ok further => exact List.forall_mem_cons.mpr ⟨rfl, ih later⟩

end Layout

namespace Source

variable {source : Source} {tokens : List Token}

theorem tokens_readable (lexed : source.tokens.result = .ok tokens) : ∀ line ∈ source.lines, line.isSome := by
  rw [tokens_lines] at lexed
  exact Layout.lines_readable lexed

theorem tokens_of_wellIndented (readable : ∀ line ∈ source.lines, line.isSome)
    (fine : Row.WellIndented source.unit? 0 source.rows) :
    source.tokens.result = .ok (Group.stream ⟨source.name, source.lines.length⟩ 0 source.groups) := by
  have none : Row.firstOffence? source.name source.unit? 0 source.rows = none :=
    (Row.firstOffence?_eq_none_iff source.name (Row.unit?_measures source.rows)).mpr fine
  rw [source.tokens_result readable, none]

theorem tokens_wellIndented (lexed : source.tokens.result = .ok tokens) :
    Row.WellIndented source.unit? 0 source.rows := by
  have result := source.tokens_result (tokens_readable lexed)
  cases offence : Row.firstOffence? source.name source.unit? 0 source.rows with
  | some error =>
    rw [lexed, offence] at result
    cases result
  | none => exact (Row.firstOffence?_eq_none_iff source.name (Row.unit?_measures source.rows)).mp offence

/-- The tokens of a source are those of its rows. -/
theorem tokens_stream (lexed : source.tokens.result = .ok tokens) :
    tokens = Group.stream ⟨source.name, source.lines.length⟩ 0 source.groups ∧ Group.Gradual 0 source.groups := by
  have fine := tokens_wellIndented lexed
  have result := tokens_of_wellIndented (tokens_readable lexed) fine
  refine ⟨Except.ok.inj (lexed.symm.trans result), ?_⟩
  simpa [Group.Gradual, groups, Row.group, Function.comp_def] using fine.gradual

/-- The tokens of a source are stretches, one for each row and in the rows' order, then steps down, and one end of the
input that carries the number of all lines. Levels are opened and closed in balance, and as many are open where the
words of a stretch begin as its row's level says. -/
theorem tokens_shape (lexed : source.tokens.result = .ok tokens) :
    ∃ (stretches : List Stretch) (closing : List Token),
      tokens = stretches.flatMap Stretch.tokens ++ closing ++ [Token.eof ⟨source.name, source.lines.length⟩] ∧
      List.Forall₂ (Stretch.Covers source.name) stretches source.rows ∧
      (∀ token ∈ closing, token.kind = .endIndent) ∧
      (∀ part, part <+: tokens → Token.ends part ≤ Token.begins part) ∧ Token.ends tokens = Token.begins tokens ∧
      ∀ earlier stretch later row, stretches = earlier ++ stretch :: later → source.rows[earlier.length]? = some row →
        Token.begins (earlier.flatMap Stretch.tokens ++ stretch.opening) =
          Token.ends (earlier.flatMap Stretch.tokens ++ stretch.opening) + row.level source.unit? := by
  obtain ⟨rfl, gradual⟩ := tokens_stream lexed
  have counted := Group.depth?_stream ⟨source.name, source.lines.length⟩ source.groups_sound gradual
  refine ⟨Group.stretches 0 source.groups, _, Group.stream_stretches _ 0 _, ?_, ?_, ?_, ?_, ?_⟩
  · exact Group.stretches_cover source.name source.unit? 0 Row.ofLines_visible
  · intro token member
    rw [(List.mem_replicate.mp member).2]
    rfl
  · exact fun part first => Token.ends_le_begins counted first
  · exact (Token.depth?_count counted).symm
  · intro earlier stretch later row split place
    obtain ⟨group, found, level⟩ := Group.depth?_stretches source.groups_sound gradual split
    rw [groups, List.getElem?_map, place] at found
    cases found
    exact Token.depth?_count level

set_option maxRecDepth 20000 in
/-- Two levels are left at once, past a blank line, and a text reaches to the end of its line. -/
theorem tokens_shape_nested :
    ∃ tokens, (Source.mk "s" [some "if a", some "\tif b", some "\t\ttext of  c", some "  ", some "d"]).tokens.result =
        .ok tokens ∧
      Token.begins tokens = 2 ∧ Token.ends tokens = Token.begins tokens ∧
      ∀ part, part <+: tokens → Token.ends part ≤ Token.begins part := by
  have lexed : (Source.mk "s" [some "if a", some "\tif b", some "\t\ttext of  c", some "  ", some "d"]).tokens.result =
      .ok [⟨.keyword .ifWord, "if", ⟨"s", 1⟩⟩, ⟨.word, "a", ⟨"s", 1⟩⟩, .newline ⟨"s", 1⟩,
        .beginIndent ⟨"s", 2⟩, ⟨.keyword .ifWord, "if", ⟨"s", 2⟩⟩, ⟨.word, "b", ⟨"s", 2⟩⟩, .newline ⟨"s", 2⟩,
        .beginIndent ⟨"s", 3⟩, ⟨.text, "of c", ⟨"s", 3⟩⟩, .newline ⟨"s", 3⟩,
        .endIndent ⟨"s", 5⟩, .endIndent ⟨"s", 5⟩, ⟨.word, "d", ⟨"s", 5⟩⟩, .newline ⟨"s", 5⟩, .eof ⟨"s", 5⟩] := by
    rfl
  obtain ⟨_, _, _, _, _, prefixes, total, _⟩ := tokens_shape lexed
  exact ⟨_, lexed, rfl, total, prefixes⟩

end Source
end Parlance
