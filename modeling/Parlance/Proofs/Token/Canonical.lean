import Parlance.Proofs.Node.Typeset

/-! The canonical text of tokens: every line in its place, indented by its level, with one space between lexemes and
nothing on the lines between. Where all blanks are ASCII, it is read as the tokens that it was made from, so these tell
nothing of the unit of indentation, of the spaces between words or of what blank lines hold. -/
namespace Parlance

/-- What is written for a token. A text is announced, and may be empty. -/
def Token.written (token : Token) : List String :=
  if token.kind = .text then "text" :: (if token.lexeme = "" then [] else [token.lexeme]) else [token.lexeme]

namespace Group

/-- The groups of tokens, of which the first may have begun, with its level and some of its words. -/
def ofTokens (level : Nat) (words : List Token) : List Token → List Group
  | [] => []
  | token :: rest =>
    match token.kind with
    | .beginIndent => ofTokens (level + 1) words rest
    | .endIndent => ofTokens (level - 1) words rest
    | .newline => ⟨token.span, level, words⟩ :: ofTokens level [] rest
    | .eof => []
    | _ => ofTokens level (words ++ [token]) rest

def text (unit : Indent) (group : Group) : String :=
  Node.Line.text unit ⟨group.level, group.words.flatMap Token.written⟩

end Group

namespace Token

/-- The line of the last token, which is the number of all lines. -/
def lineCount (tokens : List Token) : Nat :=
  (tokens.getLast?.map fun last => last.span.line).getD 0

/-- The text of a line: that of the group with its number, if there is one. -/
def canonicalLine (unit : Indent) (groups : List Group) (number : Nat) : String :=
  ((groups.find? (·.span.line == number)).map (Group.text unit)).getD ""

def canonical (unit : Indent) (tokens : List Token) : String :=
  String.join (((List.range' 1 (lineCount tokens)).map (canonicalLine unit (Group.ofTokens 0 [] tokens))).map (· ++ "\n"))

end Token

/-! ### Groups from tokens -/

namespace Group

variable {group : Group} {groups : List Group} {level : Nat}

theorem ofTokens_opening (span : Span) {before after : Nat} (gradual : after ≤ before + 1) (rest : List Token) :
    ofTokens before [] (opening span before after ++ rest) = ofTokens after [] rest := by
  unfold opening
  split
  · have next : after = before + 1 := by omega
    subst next
    rfl
  · rename_i lower
    obtain ⟨steps, rfl⟩ := Nat.exists_eq_add_of_le (Nat.not_lt.mp lower)
    rw [Nat.add_sub_cancel_left]
    induction steps with
    | zero => rfl
    | succ steps ih => exact ih (by omega) (by omega)

theorem ofTokens_words (level : Nat) (words : List Token) {more : List Token}
    (plain : ∀ token ∈ more, token.kind.isLayout = false) (rest : List Token) :
    ofTokens level words (more ++ rest) = ofTokens level (words ++ more) rest := by
  induction more generalizing words with
  | nil => rw [List.append_nil, List.nil_append]
  | cons token more ih =>
    obtain ⟨here, later⟩ := List.forall_mem_cons.mp plain
    have taken : ofTokens level words (token :: (more ++ rest)) = ofTokens level (words ++ [token]) (more ++ rest) := by
      rw [ofTokens]
      split <;> simp_all [Kind.isLayout]
    rw [List.cons_append, taken, ih _ later, List.append_assoc, List.singleton_append]

/-- The tokens of groups are cut into those groups. -/
theorem ofTokens_stream (stop : Span) (sound : ∀ group ∈ groups, group.Sound) (gradual : Gradual level groups) :
    ofTokens level [] (stream stop level groups) = groups := by
  induction groups generalizing level with
  | nil =>
    have down := ofTokens_opening stop (Nat.zero_le (level + 1)) [Token.eof stop]
    simpa [opening, stream, ofTokens, Token.eof] using down
  | cons group rest ih =>
    obtain ⟨here, later⟩ := List.forall_mem_cons.mp sound
    obtain ⟨rise, further⟩ := gradual.tail
    rw [stream, tokens, List.append_assoc, List.append_assoc, ofTokens_opening group.span rise,
      ofTokens_words group.level [] here.plain]
    exact congrArg (group :: ·) (ih later further)

theorem lineCount_stream (stop : Span) (level : Nat) (groups : List Group) :
    Token.lineCount (stream stop level groups) = stop.line := by
  rw [stream_stretches, Token.lineCount, List.getLast?_concat]
  rfl

end Group

/-! ### Lexemes and words -/

theorem Text.intercalate_append {front back : List String} (first : front ≠ []) (second : back ≠ []) :
    " ".intercalate (front ++ back) = " ".intercalate front ++ " " ++ " ".intercalate back := by
  induction front with
  | nil => exact absurd rfl first
  | cons part front ih =>
    cases front with
    | nil =>
      obtain ⟨next, back, rfl⟩ := List.exists_cons_of_ne_nil second
      simp [String.intercalate_cons_cons]
    | cons next front =>
      have further := ih (List.cons_ne_nil _ _)
      rw [List.cons_append, List.cons_append, String.intercalate_cons_cons, ← List.cons_append, further,
        String.intercalate_cons_cons]
      simp [String.append_assoc]

namespace Token

theorem written_ne_nil (token : Token) : token.written ≠ [] := by
  unfold written
  split <;> exact List.cons_ne_nil _ _

theorem intercalate_written {token : Token} (faithful : token.Faithful) (plain : token.kind.isLayout = false) :
    " ".intercalate token.written = " ".intercalate token.spelled := by
  cases kind : token.kind with
  | number | word => simp [written, spelled, kind]
  | text =>
    simp only [Faithful, kind] at faithful
    by_cases empty : token.lexeme = ""
    · rw [written, if_pos kind, if_pos empty, spelled, kind, empty]
      rfl
    · have spoken : Text.wordsOf token.lexeme ≠ [] := by
        intro none
        rw [none] at faithful
        exact empty faithful.symm
      have announced := Text.intercalate_append (List.cons_ne_nil "text" []) spoken
      rw [faithful] at announced
      rw [written, if_pos kind, if_neg empty, spelled, kind]
      exact announced.symm
  | keyword keyword =>
    simp only [Faithful, kind] at faithful
    have single : token.written = [keyword.spelling] := by simp [written, kind, faithful]
    rw [single, spelled, kind]
    dsimp only
    split
    · rename_i means
      subst means
      rfl
    · rfl
  | newline | eof | beginIndent | endIndent =>
    rw [kind] at plain
    cases plain

/-- Written by lexemes or by words, legible tokens have the same text. -/
theorem intercalate_flatMap_written {tokens : List Token} (faithful : ∀ token ∈ tokens, token.Faithful)
    (plain : ∀ token ∈ tokens, token.kind.isLayout = false) :
    " ".intercalate (tokens.flatMap written) = " ".intercalate (tokens.flatMap spelled) := by
  induction tokens with
  | nil => rfl
  | cons token rest ih =>
    obtain ⟨exact, later⟩ := List.forall_mem_cons.mp faithful
    obtain ⟨shown, further⟩ := List.forall_mem_cons.mp plain
    have here := intercalate_written exact shown
    rw [List.flatMap_cons, List.flatMap_cons]
    cases rest with
    | nil => simpa using here
    | cons next rest =>
      have written : (next :: rest).flatMap written ≠ [] := by
        rw [List.flatMap_cons]
        exact List.append_ne_nil_of_left_ne_nil next.written_ne_nil _
      have spelled : (next :: rest).flatMap spelled ≠ [] := by
        rw [List.flatMap_cons]
        exact List.append_ne_nil_of_left_ne_nil (spelled_ne_nil (further next List.mem_cons_self)) _
      rw [Text.intercalate_append token.written_ne_nil written, Text.intercalate_append (spelled_ne_nil shown) spelled,
        here, ih later further]

end Token

namespace Group

variable {group : Group} {groups : List Group}

/-- The group's words on a line of their own. -/
def line (group : Group) : Node.Line :=
  ⟨group.level, group.words.flatMap Token.spelled⟩

theorem text_eq (sound : group.Sound) (legible : Token.Legible group.words) (unit : Indent) :
    group.text unit = group.line.text unit := by
  simp only [text, line, Node.Line.text, Token.intercalate_flatMap_written legible.faithful sound.plain]

theorem line_filled (sound : group.Sound) (legible : Token.Legible group.words) : group.line.Filled where
  spoken := by
    obtain ⟨first, rest, same⟩ := List.exists_cons_of_ne_nil sound.spoken
    rw [line, same, List.flatMap_cons]
    exact List.append_ne_nil_of_left_ne_nil (Token.spelled_ne_nil (sound.plain first (same ▸ List.mem_cons_self))) _
  tight := by
    intro word member
    obtain ⟨token, inside, within⟩ := List.mem_flatMap.mp member
    exact Token.spelled_tight (legible.faithful token inside) word within

theorem lines_climbing (sound : ∀ group ∈ groups, group.Sound) (legible : ∀ group ∈ groups, Token.Legible group.words)
    (gradual : Gradual 0 groups) : Node.Climbing (groups.map line) where
  filled := List.forall_mem_map.mpr fun group member => line_filled (sound group member) (legible group member)
  levels := by
    rw [List.map_map]
    exact gradual

/-- A group that holds the words of another, at the same place, is that group. -/
theorem Holds.eq {other : Group} (holds : other.Holds group.line) (sound : group.Sound)
    (legible : Token.Legible group.words) (span : other.span = group.span) : other = group := by
  have words : other.words = group.words := by
    rw [holds.words, line, Token.ofWords_spelled other.span legible sound.plain]
    refine (List.map_congr_left fun token member => ?_).trans (List.map_id _)
    rw [Token.moved, span, ← sound.spans token member]
    rfl
  have level := holds.level
  cases other
  cases group
  simp_all [line]

end Group

/-! ### Lines in their places -/

namespace Row

variable {groups : List Group}

theorem ofLines_range (texts : Nat → String) (first count : Nat) :
    ofLines first ((List.range' first count).map fun number => some (texts number)) =
      (List.range' first count).filterMap fun number => ofLine? number (some (texts number)) := by
  induction count generalizing first with
  | zero => rfl
  | succ count ih =>
    rw [List.range'_succ, List.map_cons, ofLines_cons, ih, List.filterMap_cons]
    cases ofLine? first (some (texts first)) <;> rfl

/-- Things with increasing numbers are found in their order when the numbers are gone through. -/
theorem filterMap_find? {α β : Type} (number : α → Nat) (f : α → β) {items : List α} {first count : Nat}
    (increasing : (items.map number).Pairwise (· < ·))
    (inside : ∀ item ∈ items, first ≤ number item ∧ number item < first + count) :
    ((List.range' first count).filterMap fun place => (items.find? (number · == place)).map f) = items.map f := by
  induction count generalizing first items with
  | zero =>
    cases items with
    | nil => rfl
    | cons item rest =>
      have := inside item List.mem_cons_self
      omega
  | succ count ih =>
    rw [List.range'_succ, List.filterMap_cons]
    cases items with
    | nil => simp
    | cons item rest =>
      obtain ⟨least, ordered⟩ := List.pairwise_cons.mp increasing
      obtain ⟨bound, bounds⟩ := List.forall_mem_cons.mp inside
      have above : ∀ other ∈ rest, number item < number other ∧ number other < first + (count + 1) :=
        fun other member => ⟨least _ (List.mem_map_of_mem member), (bounds other member).2⟩
      by_cases same : number item = first
      · have inner : ∀ other ∈ rest, first + 1 ≤ number other ∧ number other < first + 1 + count := by
          intro other member
          have more := above other member
          omega
        have skipped : ∀ place ∈ List.range' (first + 1) count,
            ((item :: rest).find? (number · == place)).map f = (rest.find? (number · == place)).map f := by
          intro place member
          have later := List.mem_range'_1.mp member
          have apart : (number item == place) = false := by
            rw [beq_eq_false_iff_ne]
            omega
          rw [List.find?_cons, apart]
        rw [List.filterMap_congr skipped, ih ordered inner]
        simp [same]
      · have outer : ∀ other ∈ item :: rest, first + 1 ≤ number other ∧ number other < first + 1 + count := by
          refine List.forall_mem_cons.mpr ⟨by omega, fun other member => ?_⟩
          have more := above other member
          omega
        have none : (item :: rest).find? (number · == first) = none := by
          refine List.find?_eq_none.mpr fun other member => ?_
          have later := outer other member
          simp only [beq_iff_eq]
          omega
        rw [none, Option.map_none, ih increasing outer]

end Row

namespace Source

variable {source : Source} {tokens : List Token} {unit : Indent}

theorem groups_numbered (source : Source) : (source.groups.map fun group => group.span.line).Pairwise (· < ·) := by
  have increasing := Row.ofLines_increasing 1 source.lines
  simpa [groups, rows, Row.group, Row.span, Function.comp_def] using increasing

theorem groups_inside (source : Source) :
    ∀ group ∈ source.groups, 1 ≤ group.span.line ∧ group.span.line < 1 + source.lines.length := by
  intro group member
  obtain ⟨row, inside, rfl⟩ := List.mem_map.mp member
  obtain ⟨⟨line, number⟩, given, found⟩ := List.mem_filterMap.mp inside
  have bounds := List.mem_zipIdx given
  have same : row.number = number := (Row.ofLine?_number found).1
  simp only [Row.group, Row.span, same]
  omega

/-- The canonical text of the groups has them for its rows. -/
theorem rows_canonical (blanks : source.AsciiBlanks) (name : String) (unit : Indent) :
    (Source.mk name ((List.range' 1 source.lines.length).map fun number =>
      some (Token.canonicalLine unit source.groups number))).rows =
      source.groups.map fun group => ⟨group.span.line, (group.line.text unit).toList⟩ := by
  have each (number : Nat) : Row.ofLine? number (some (Token.canonicalLine unit source.groups number)) =
      (source.groups.find? (·.span.line == number)).map fun group =>
        ⟨group.span.line, (group.line.text unit).toList⟩ := by
    cases found : source.groups.find? (·.span.line == number) with
    | none =>
      rw [Token.canonicalLine, found]
      rfl
    | some group =>
      have member := List.mem_of_find?_eq_some found
      have place : group.span.line = number := by simpa using List.find?_some found
      have sound := source.groups_sound group member
      have legible := groups_legible blanks group member
      have visible := (Group.line_filled sound legible).visible unit
      rw [Token.canonicalLine, found, Option.map_some, Option.getD_some, Group.text_eq sound legible,
        Row.ofLine?_visible number visible, Option.map_some, place]
  rw [rows, Row.ofLines_range]
  simp only [each]
  exact Row.filterMap_find? (fun group : Group => group.span.line) _ source.groups_numbered source.groups_inside

theorem lines_canonical (blanks : source.AsciiBlanks) (name : String) (unit : Indent) :
    (ofText name (String.join (((List.range' 1 source.lines.length).map
      (Token.canonicalLine unit source.groups)).map (· ++ "\n")))).lines =
      (List.range' 1 source.lines.length).map fun number => some (Token.canonicalLine unit source.groups number) := by
  have whole : ∀ text ∈ (List.range' 1 source.lines.length).map (Token.canonicalLine unit source.groups),
      '\n' ∉ text.toList ∧ '\r' ∉ text.toList := by
    refine List.forall_mem_map.mpr fun number _ => ?_
    unfold Token.canonicalLine
    cases found : source.groups.find? (·.span.line == number) with
    | none => exact ⟨List.not_mem_nil, List.not_mem_nil⟩
    | some group =>
      have member := List.mem_of_find?_eq_some found
      have sound := source.groups_sound group member
      have legible := groups_legible blanks group member
      rw [Option.map_some, Option.getD_some, Group.text_eq sound legible]
      exact (Group.line_filled sound legible).unbroken unit
  rw [ofText_lines whole name, List.map_map]
  rfl

/-- The canonical text of the tokens of a source without other blanks than ASCII ones is read as these tokens again,
whatever unit of tabs or of spaces it is indented by: the kinds, the lexemes and the lines are the same. -/
theorem tokens_canonical (blanks : source.AsciiBlanks) (lexed : source.tokens.result = .ok tokens)
    (indents : unit.isZero = false) (unmixed : unit.isMixed = false) :
    (Source.ofText source.name (Token.canonical unit tokens)).tokens.result = .ok tokens := by
  obtain ⟨rfl, gradual⟩ := tokens_stream lexed
  have sound := source.groups_sound
  have legible := groups_legible blanks
  rw [Token.canonical, Group.ofTokens_stream _ sound gradual, Group.lineCount_stream]
  have cut := lines_canonical blanks source.name unit
  generalize read : ofText source.name _ = again at cut ⊢
  have name : again.name = source.name := by rw [← read]; rfl
  have rows : again.rows = source.groups.map fun group => ⟨group.span.line, (group.line.text unit).toList⟩ := by
    rw [← rows_canonical blanks source.name unit, Source.rows, cut, Source.rows]
  have shown : List.Forall₂ (Row.Shows unit) again.rows (source.groups.map Group.line) := by
    rw [rows, List.forall₂_map_left_iff, List.forall₂_map_right_iff]
    exact List.forall₂_same.mpr fun _ _ => rfl
  have readable : ∀ line ∈ again.lines, line.isSome := by
    rw [cut]
    exact List.forall_mem_map.mpr fun _ _ => rfl
  obtain ⟨result, holds⟩ := tokens_shown readable indents unmixed (Group.lines_climbing sound legible gradual) shown
  have groups : again.groups = source.groups := by
    rw [Source.groups, rows, List.map_map] at holds ⊢
    rw [List.forall₂_map_left_iff, List.forall₂_map_right_iff, List.forall₂_same] at holds
    refine (List.map_congr_left fun group member => ?_).trans (List.map_id _)
    refine (holds group member).eq (sound group member) (legible group member) ?_
    obtain ⟨row, -, rfl⟩ := List.mem_map.mp member
    exact congrArg (Span.mk · row.number) name
  rw [result, groups, name, cut, List.length_map, List.length_range']

set_option maxRecDepth 20000 in
/-- A `we` before `we mean`, an empty text and one with wide gaps, an indentation of four spaces, and two blank lines with
something on them. -/
theorem tokens_canonical_respaced :
    ∃ (source : Source) (tokens : List Token), source.lines = [some "we  we mean\t007", some " \t", some "    text",
        some "    text  of \r two", some "\x0c"] ∧
      source.AsciiBlanks ∧ source.tokens.result = .ok tokens ∧
      Token.canonical ⟨2, 0⟩ tokens = "we we mean 007\n\n\t\ttext\n\t\ttext of two\n\n" ∧
      (Source.ofText source.name (Token.canonical ⟨2, 0⟩ tokens)).tokens.result = .ok tokens := by
  have lexed : (Source.mk "s" [some "we  we mean\t007", some " \t", some "    text", some "    text  of \r two",
      some "\x0c"]).tokens.result =
      .ok [⟨.word, "we", ⟨"s", 1⟩⟩, ⟨.keyword .weMeanWord, "we mean", ⟨"s", 1⟩⟩, ⟨.number, "007", ⟨"s", 1⟩⟩,
        .newline ⟨"s", 1⟩, .beginIndent ⟨"s", 3⟩, ⟨.text, "", ⟨"s", 3⟩⟩, .newline ⟨"s", 3⟩,
        ⟨.text, "of two", ⟨"s", 4⟩⟩, .newline ⟨"s", 4⟩, .endIndent ⟨"s", 5⟩, .eof ⟨"s", 5⟩] := by
    rfl
  have blanks : (Source.mk "s" [some "we  we mean\t007", some " \t", some "    text", some "    text  of \r two",
      some "\x0c"]).AsciiBlanks := by
    simp [AsciiBlanks, Text.isAscii]
  exact ⟨_, _, rfl, blanks, lexed, by decide +kernel, tokens_canonical blanks lexed rfl rfl⟩

end Source
end Parlance
