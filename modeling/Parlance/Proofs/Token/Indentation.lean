import Parlance.Proofs.Token.Stream

/-! Which sources can be cut into tokens. Rows may be indented by tabs or by spaces, all by the same, by whole units,
and by at most one level more than the row before. The first row that breaks a rule decides the error. -/
namespace Parlance

namespace Indent

/-- What counting units divides and by what, where it comes to a division. -/
def division? (indent unit : Indent) : Option (Nat × Nat) :=
  if indent.isMixed then none
  else if unit.tabs = 0 ∧ indent.tabs = 0 then some (indent.spaces, unit.spaces)
  else if unit.spaces = 0 ∧ indent.spaces = 0 then some (indent.tabs, unit.tabs)
  else none

theorem units_eq (indent unit : Indent) :
    indent.units unit = match indent.division? unit with
      | none => .error .mixed
      | some (amount, step) => if amount % step = 0 then .ok (amount / step) else .error .inconsistent := by
  unfold units division?
  split_ifs <;> rfl

theorem division?_positive {indent unit : Indent} {amount step : Nat} (indents : unit.isZero = false)
    (divided : indent.division? unit = some (amount, step)) : 0 < step := by
  simp only [isZero, Bool.and_eq_false_iff, beq_eq_false_iff_ne] at indents
  unfold division? at divided
  split_ifs at divided with mixed spaces tabs <;> cases divided <;> omega

/-- Where the kinds agree, the amounts are divided. -/
theorem division?_eq {indent unit : Indent} (indented : indent.isZero = false) (indents : unit.isZero = false)
    (pure : unit.isMixed = true → indent.isMixed = true) :
    indent.division? unit =
      if indent.isMixed = true ∨ ¬ indent.SameKind unit then none else some (indent.amount, unit.amount) := by
  simp only [isZero, Bool.and_eq_false_iff, beq_eq_false_iff_ne] at indented indents
  simp only [isMixed_iff] at pure
  unfold division? SameKind amount
  simp only [isMixed_iff]
  by_cases mixed : 0 < indent.tabs ∧ 0 < indent.spaces
  · rw [if_pos mixed, if_pos (.inl mixed)]
  · -- Neither of the two is mixed now, so each is of tabs or of spaces alone.
    rw [if_neg mixed]
    by_cases spaces : unit.tabs = 0 ∧ indent.tabs = 0
    · rw [if_pos spaces, if_neg (by omega)]
      simp [spaces]
    · rw [if_neg spaces]
      by_cases tabs : unit.spaces = 0 ∧ indent.spaces = 0
      · rw [if_pos tabs, if_neg (by omega)]
        simp [tabs]
      · rw [if_neg tabs, if_pos (by omega)]

end Indent

namespace Row

/-- What is wrong with a row after one of level `before`, in a source indented by `unit`. Of several faults the kind of
the indentation comes first and the jump last. -/
def offence? (name : String) (unit : Option Indent) (before : Nat) (row : Row) : Option TokenError :=
  unit.bind fun unit =>
    if row.indent.isZero = true then none
    else if row.indent.isMixed = true ∨ ¬ row.indent.SameKind unit then some (.mixedIndentation (row.span name))
    else if ¬ unit.amount ∣ row.indent.amount then
      some (.inconsistentIndentation (row.span name) row.indent unit)
    else if before + 1 < row.level (some unit) then
      some (.indentJump (row.span name) (row.level (some unit) - before))
    else none

structure WellIndented (unit : Option Indent) (before : Nat) (rows : List Row) : Prop where
  pure : ∀ row ∈ rows, row.indent.tabs = 0 ∨ row.indent.spaces = 0
  alike : ∀ row ∈ rows, row.indent.isZero = false → ∀ u ∈ unit, row.indent.SameKind u
  whole : ∀ row ∈ rows, ∀ u ∈ unit, u.amount ∣ row.indent.amount
  gradual : (before :: rows.map (level unit)).IsChain fun lower upper => upper ≤ lower + 1

/-- The level at which rows end that follow one of level `before`. -/
def lastLevel (unit : Option Indent) (before : Nat) (rows : List Row) : Nat :=
  (rows.map (level unit)).getLastD before

def firstOffence? (name : String) (unit : Option Indent) (before : Nat) : List Row → Option TokenError
  | [] => none
  | row :: rest => (row.offence? name unit before).or (firstOffence? name unit (row.level unit) rest)

variable {name : String} {unit : Option Indent}

theorem lastLevel_cons (before : Nat) (row : Row) (rest : List Row) :
    lastLevel unit before (row :: rest) = lastLevel unit (row.level unit) rest := by
  rw [lastLevel, List.map_cons, List.getLastD_cons, lastLevel]

theorem offence?_eq_none_iff {before : Nat} {row : Row} (measured : row.indent.isZero = false → unit.isSome) :
    row.offence? name unit before = none ↔
      (row.indent.tabs = 0 ∨ row.indent.spaces = 0) ∧ (row.indent.isZero = false → ∀ u ∈ unit, row.indent.SameKind u) ∧
        (∀ u ∈ unit, u.amount ∣ row.indent.amount) ∧ row.level unit ≤ before + 1 := by
  cases zero : row.indent.isZero with
  | true =>
    have empty := (Indent.isZero_iff _).mp zero
    have flat : row.level unit = 0 := Indent.level_of_isZero unit zero
    have tabs : row.indent.tabs = 0 := by simp only [Indent.amount] at empty; omega
    simp [offence?, zero, empty, flat, tabs]
  | false =>
    obtain ⟨u, rfl⟩ := Option.isSome_iff_exists.mp (measured zero)
    have pure : row.indent.tabs = 0 ∨ row.indent.spaces = 0 ↔ row.indent.isMixed = false := by
      simp only [Indent.isMixed, Bool.and_eq_false_iff, decide_eq_false_iff_not]
      omega
    simp only [offence?, Option.bind_some, zero, Bool.false_eq_true, if_false, Option.mem_some_iff, forall_eq', pure,
      true_implies]
    split_ifs with kind whole jump
    · refine iff_of_false not_false ?_
      rintro ⟨unmixed, alike, -⟩
      rcases kind with mixed | other
      · exact Bool.false_ne_true (unmixed.symm.trans mixed)
      · exact other alike
    · exact iff_of_false not_false fun fine => Nat.not_lt.mpr fine.2.2.2 jump
    · simp only [not_or, Bool.not_eq_true, not_not] at kind
      exact iff_of_true rfl ⟨kind.1, kind.2, whole, Nat.not_lt.mp jump⟩
    · exact iff_of_false not_false fun fine => whole fine.2.2.1

theorem firstOffence?_eq_none_iff (name : String) {before : Nat} {rows : List Row}
    (measured : ∀ row ∈ rows, row.indent.isZero = false → unit.isSome) :
    firstOffence? name unit before rows = none ↔ WellIndented unit before rows := by
  induction rows generalizing before with
  | nil => exact ⟨fun _ => ⟨by simp, by simp, by simp, by simp⟩, fun _ => rfl⟩
  | cons row rest ih =>
    obtain ⟨here, later⟩ := List.forall_mem_cons.mp measured
    simp only [firstOffence?, Option.or_eq_none_iff, offence?_eq_none_iff here, ih later]
    constructor
    · rintro ⟨⟨pure, alike, whole, rise⟩, following⟩
      exact ⟨List.forall_mem_cons.mpr ⟨pure, following.pure⟩, List.forall_mem_cons.mpr ⟨alike, following.alike⟩,
        List.forall_mem_cons.mpr ⟨whole, following.whole⟩, List.isChain_cons_cons.mpr ⟨rise, following.gradual⟩⟩
    · rintro ⟨pure, alike, whole, gradual⟩
      obtain ⟨rise, rising⟩ := List.isChain_cons_cons.mp gradual
      obtain ⟨pure, purely⟩ := List.forall_mem_cons.mp pure
      obtain ⟨alike, alikely⟩ := List.forall_mem_cons.mp alike
      obtain ⟨whole, wholly⟩ := List.forall_mem_cons.mp whole
      exact ⟨⟨pure, alike, whole, rise⟩, purely, alikely, wholly, rising⟩

/-- The first offence is that of a row before which there is none. -/
theorem firstOffence?_eq_some_iff {before : Nat} {rows : List Row} {error : TokenError} :
    firstOffence? name unit before rows = some error ↔
      ∃ earlier row later, rows = earlier ++ row :: later ∧ firstOffence? name unit before earlier = none ∧
        row.offence? name unit (lastLevel unit before earlier) = some error := by
  induction rows generalizing before with
  | nil => simp [firstOffence?]
  | cons row rest ih =>
    rw [firstOffence?, Option.or_eq_some_iff, ih]
    constructor
    · rintro (here | ⟨fine, earlier, other, later, rfl, none, found⟩)
      · exact ⟨[], row, rest, rfl, rfl, here⟩
      · exact ⟨row :: earlier, other, later, rfl, by simp [firstOffence?, fine, none], by rwa [lastLevel_cons]⟩
    · rintro ⟨earlier, other, later, same, none, found⟩
      cases earlier with
      | nil =>
        cases same
        exact .inl found
      | cons first earlier =>
        cases same
        rw [firstOffence?, Option.or_eq_none_iff] at none
        rw [lastLevel_cons] at found
        exact .inr ⟨none.1, earlier, other, later, rfl, none.2, found⟩

theorem unit?_cons_zero {row : Row} (rest : List Row) (zero : row.indent.isZero = true) :
    unit? (row :: rest) = unit? rest := by
  simp [unit?, zero]

theorem unit?_cons_indented {row : Row} (rest : List Row) (indented : row.indent.isZero = false) :
    unit? (row :: rest) = some row.indent := by
  simp [unit?, indented]

theorem unit?_measures (rows : List Row) : ∀ row ∈ rows, row.indent.isZero = false → (unit? rows).isSome := by
  intro row member indented
  rw [unit?, List.find?_isSome]
  exact ⟨row.indent, List.mem_map_of_mem member, by simp [indented]⟩

end Row

/-! ### Reading the indentation -/

namespace Layout

variable {layout : Layout} {name : String}

/-- The unit, once it is fixed, is of one kind and not nothing. -/
def Sound (layout : Layout) : Prop :=
  ∀ unit ∈ layout.unit, unit.isZero = false ∧ unit.isMixed = false

theorem start_sound : Sound .start := by
  simp [Sound, start]

theorem line_blank (layout : Layout) (span : Span) {text : List Char} (blank : Text.allBlank text = true) :
    (layout.line span text).result = .ok (layout, []) := by
  simp [line, Indent.measure_eq, Text.allBlank_dropWhile, blank]

theorem move_result (span : Span) (before after : Nat) :
    (move span before after).result =
      if before + 1 < after then .error (.indentJump span (after - before))
      else .ok (Group.opening span before after) := by
  unfold move shift Group.opening
  split_ifs <;> rfl

/-- An indented line is measured in the unit fixed so far, or fixes it. -/
theorem place_indented (layout : Layout) (span : Span) {indent : Indent} (indented : indent.isZero = false) :
    (layout.place span indent).result =
      match indent.division? (layout.unit.getD indent) with
      | none => .error (.mixedIndentation span)
      | some (amount, step) =>
        if amount % step = 0 then .ok ⟨some (layout.unit.getD indent), amount / step⟩
        else .error (.inconsistentIndentation span indent (layout.unit.getD indent)) := by
  have placed : (layout.place span indent).result =
      (levelOf span indent (layout.unit.getD indent)).bind fun level =>
        .ok ⟨some (layout.unit.getD indent), level⟩ := by
    unfold place
    cases layout.unit with
    | none => simp [indented, Except.bind]
    | some unit =>
      simp only [indented, Bool.false_eq_true, if_false, Traced.result_bind]
      rfl
  rw [placed, levelOf, Indent.units_eq]
  cases indent.division? (layout.unit.getD indent) with
  | none => rfl
  | some division =>
    obtain ⟨amount, step⟩ := division
    dsimp only
    split_ifs <;> rfl

/-- The layout after a row in a source indented by `unit`. -/
def next (layout : Layout) (unit : Option Indent) (row : Row) : Layout :=
  ⟨if row.indent.isZero = true then layout.unit else unit, row.level unit⟩

@[simp] theorem next_level (layout : Layout) (unit : Option Indent) (row : Row) :
    (layout.next unit row).level = row.level unit := rfl

theorem line_row (name : String) (sound : layout.Sound) {row : Row} (visible : Text.allBlank row.text = false)
    {unit : Option Indent} (governs : row.indent.isZero = false → unit = some (layout.unit.getD row.indent)) :
    (layout.line (row.span name) row.text).result =
      match row.offence? name unit layout.level with
      | some error => .error error
      | none => .ok (layout.next unit row, (row.group name unit).tokens layout.level) := by
  have opened : (layout.line (row.span name) row.text).result =
      (layout.place (row.span name) row.indent).result.bind fun placed =>
        (move (row.span name) layout.level placed.level).result.bind fun moved =>
          .ok (placed, moved ++ (row.words name ++ [Token.newline (row.span name)])) := by
    simp [line, Indent.measure_eq, Text.allBlank_dropWhile, visible, Text.words_dropWhile, Row.indent, Row.words,
      Except.bind]
  rw [opened]
  cases zero : row.indent.isZero with
  | true =>
    have flat : row.level unit = 0 := Indent.level_of_isZero unit zero
    have fine : row.offence? name unit layout.level = none := by
      cases unit <;> simp [Row.offence?, zero]
    simp [place, zero, move_result, fine, next, flat, Group.tokens, Row.group, Except.bind]
  | false =>
    rw [governs zero, place_indented layout _ zero]
    generalize same : layout.unit.getD row.indent = unit
    have given : unit.isZero = false ∧ (unit.isMixed = true → row.indent.isMixed = true) := by
      cases fixed : layout.unit with
      | none => simp_all
      | some fixed => simp_all [Sound]
    have moved := move_result (row.span name) layout.level (row.level (some unit))
    rw [Indent.division?_eq zero given.1 given.2]
    simp only [Row.offence?, Option.bind_some, zero, Bool.false_eq_true, if_false, Nat.dvd_iff_mod_eq_zero]
    split_ifs with kind whole jump
    · rfl
    · dsimp only
      rw [if_pos whole]
      change (move (row.span name) layout.level (row.level (some unit))).result.bind _ = _
      rw [moved, if_pos jump]
      rfl
    · dsimp only
      rw [if_pos whole]
      change (move (row.span name) layout.level (row.level (some unit))).result.bind _ = _
      rw [moved, if_neg jump]
      simp [Except.bind, next, zero, Group.tokens, Row.group, Row.level, Indent.level]
    · dsimp only
      rw [if_neg whole]
      rfl

theorem next_sound (sound : layout.Sound) {row : Row} {unit : Option Indent}
    (governs : row.indent.isZero = false → unit = some (layout.unit.getD row.indent))
    (fine : row.offence? name unit layout.level = none) : (layout.next unit row).Sound := by
  intro u member
  cases zero : row.indent.isZero with
  | true =>
    simp only [next, zero, if_true] at member
    exact sound u member
  | false =>
    simp only [next, zero, Bool.false_eq_true, if_false] at member
    have given := governs zero
    have pure := (Row.offence?_eq_none_iff (by simp [given])).mp fine
    rw [Option.mem_def.mp member, Option.some.injEq] at given
    cases fixed : layout.unit with
    | none =>
      rw [given, fixed, Option.getD_none]
      refine ⟨zero, ?_⟩
      simp only [Indent.isMixed, Bool.and_eq_false_iff, decide_eq_false_iff_not]
      omega
    | some unit =>
      rw [given, fixed, Option.getD_some]
      exact sound unit fixed

theorem lines_blank (name : String) (count : Nat) (layout : Layout) {text : String} (rest : List RawLine)
    (blank : Text.allBlank text.toList = true) :
    (lines name count layout (some text :: rest)).result = (lines name (count + 1) layout rest).result := by
  rw [lines, Traced.result_bind, line_blank layout _ blank]
  simp only [Except.bind, Traced.result_map]
  cases (lines name (count + 1) layout rest).result <;> rfl

theorem lines_row (sound : layout.Sound) (count : Nat) {text : String} (rest : List RawLine) {row : Row}
    (found : Row.ofLine? (count + 1) (some text) = some row) {unit : Option Indent}
    (governs : row.indent.isZero = false → unit = some (layout.unit.getD row.indent)) :
    (lines name count layout (some text :: rest)).result =
      match row.offence? name unit layout.level with
      | some error => .error error
      | none => (lines name (count + 1) (layout.next unit row) rest).result.map
          ((row.group name unit).tokens layout.level ++ ·) := by
  have visible := (Row.ofLine?_number found).2
  obtain ⟨span, same⟩ : row.span name = ⟨name, count + 1⟩ ∧ row.text = text.toList := by
    simp only [Row.ofLine?, Option.bind_some] at found
    split at found <;> cases found
    exact ⟨rfl, rfl⟩
  have read := line_row name sound visible governs
  rw [span, same] at read
  rw [lines, Traced.result_bind, read]
  cases row.offence? name unit layout.level <;> rfl

/-- Lines give their rows' tokens, or the error of the first row that breaks a rule. -/
theorem lines_result (name : String) {lines : List RawLine} (readable : ∀ line ∈ lines, line.isSome) (count : Nat)
    {layout : Layout} (sound : layout.Sound) {unit : Option Indent}
    (measures : unit = layout.unit.or (Row.unit? (Row.ofLines (count + 1) lines))) :
    (Layout.lines name count layout lines).result =
      match Row.firstOffence? name unit layout.level (Row.ofLines (count + 1) lines) with
      | some error => .error error
      | none => .ok (Group.stream ⟨name, count + lines.length⟩ layout.level
          ((Row.ofLines (count + 1) lines).map (Row.group name unit))) := by
  induction lines generalizing count layout with
  | nil =>
    simp [Layout.lines, move_result, Group.opening, Group.stream, Row.firstOffence?, Except.bind]
  | cons line rest ih =>
    obtain ⟨present, later⟩ := List.forall_mem_cons.mp readable
    obtain ⟨text, rfl⟩ := Option.isSome_iff_exists.mp present
    have total : count + (rest.length + 1) = count + 1 + rest.length := by omega
    rw [Row.ofLines_cons, List.length_cons, total]
    rw [Row.ofLines_cons] at measures
    cases visible : Text.allBlank text.toList with
    | true =>
      rw [Row.ofLine?_blank _ visible] at measures ⊢
      rw [lines_blank name count layout rest visible]
      exact ih later (count + 1) sound measures
    | false =>
      have found := Row.ofLine?_visible (count + 1) visible
      rw [found, Option.toList_some, List.singleton_append] at measures ⊢
      generalize Row.mk (count + 1) text.toList = row at *
      have governs : row.indent.isZero = false → unit = some (layout.unit.getD row.indent) := by
        intro indented
        rw [measures, Row.unit?_cons_indented _ indented]
        cases layout.unit <;> rfl
      rw [lines_row sound count rest found governs, Row.firstOffence?]
      cases fine : row.offence? name unit layout.level with
      | some error => rfl
      | none =>
        have following : unit = (layout.next unit row).unit.or (Row.unit? (Row.ofLines (count + 1 + 1) rest)) := by
          cases zero : row.indent.isZero with
          | true => simpa [next, zero, Row.unit?_cons_zero _ zero] using measures
          | false => simp [next, zero, governs zero]
        simp only [Option.none_or, ih later (count + 1) (next_sound sound governs fine) following, next_level]
        cases Row.firstOffence? name unit (row.level unit) (Row.ofLines (count + 1 + 1) rest) <;> rfl

end Layout

namespace Source

/-- The layout with which the line after the first `count` of a source is read. -/
inductive Reaches (source : Source) : Nat → Layout → Prop
  | start : Reaches source 0 .start
  | next {count : Nat} {layout after : Layout} {text : String} {tokens : List Token}
      (reached : Reaches source count layout) (line : source.lines[count]? = some (some text))
      (read : (layout.line ⟨source.name, count + 1⟩ text.toList).result = .ok (after, tokens)) :
      Reaches source (count + 1) after

theorem Reaches.sound {source : Source} {count : Nat} {layout : Layout} (reached : source.Reaches count layout) :
    layout.Sound := by
  induction reached with
  | start => exact Layout.start_sound
  | @next count layout after text tokens reached line read ih =>
    cases visible : Text.allBlank text.toList with
    | true =>
      rw [Layout.line_blank layout _ visible] at read
      cases read
      exact ih
    | false =>
      let row : Row := ⟨count + 1, text.toList⟩
      obtain ⟨unit, governs⟩ : ∃ unit, row.indent.isZero = false → unit = some (layout.unit.getD row.indent) :=
        ⟨_, fun _ => rfl⟩
      have step := Layout.line_row source.name ih visible governs
      change (layout.line ⟨source.name, count + 1⟩ text.toList).result = _ at step
      rw [read] at step
      cases fine : row.offence? source.name unit layout.level with
      | some error =>
        rw [fine] at step
        cases step
      | none =>
        rw [fine] at step
        cases step
        exact Layout.next_sound ih governs fine

theorem tokens_lines (source : Source) :
    source.tokens.result = (Layout.lines source.name 0 .start source.lines).result := by
  rw [tokens, Traced.result_bind]
  cases (Layout.lines source.name 0 .start source.lines).result <;> rfl

theorem tokens_result (source : Source) (readable : ∀ line ∈ source.lines, line.isSome) :
    source.tokens.result =
      match Row.firstOffence? source.name source.unit? 0 source.rows with
      | some error => .error error
      | none => .ok (Group.stream ⟨source.name, source.lines.length⟩ 0 source.groups) := by
  have measures : source.unit? = Layout.start.unit.or (Row.unit? (Row.ofLines (0 + 1) source.lines)) := rfl
  have read := Layout.lines_result source.name readable 0 Layout.start_sound measures
  rw [Nat.zero_add, Nat.zero_add] at read
  rw [tokens_lines, read]
  rfl

/-- A source all of whose lines can be read is cut into tokens just when its rows are well indented. Otherwise the error
is that of the first row that is not, and names its line. And wherever an indentation is counted in units, it is divided
by something. -/
theorem tokens_iff_well_indented (source : Source) (readable : ∀ line ∈ source.lines, line.isSome) :
    ((∃ tokens, source.tokens.result = .ok tokens) ↔ Row.WellIndented source.unit? 0 source.rows) ∧
    (∀ error, source.tokens.result = .error error ↔
      ∃ earlier row later, source.rows = earlier ++ row :: later ∧ Row.WellIndented source.unit? 0 earlier ∧
        row.offence? source.name source.unit? (Row.lastLevel source.unit? 0 earlier) = some error) ∧
    ∀ count layout text, source.Reaches count layout → source.lines[count]? = some (some text) →
      ∀ indent, Indent.leading text.toList = indent → indent.isZero = false →
        ∀ amount step, indent.division? (layout.unit.getD indent) = some (amount, step) → 0 < step := by
  have measured : ∀ row ∈ source.rows, row.indent.isZero = false → source.unit?.isSome := Row.unit?_measures source.rows
  have result := source.tokens_result readable
  refine ⟨?_, ?_, ?_⟩
  · rw [← Row.firstOffence?_eq_none_iff source.name measured, result]
    cases Row.firstOffence? source.name source.unit? 0 source.rows <;> simp
  · intro error
    have first : source.tokens.result = .error error ↔
        Row.firstOffence? source.name source.unit? 0 source.rows = some error := by
      rw [result]
      cases Row.firstOffence? source.name source.unit? 0 source.rows <;> simp
    rw [first, Row.firstOffence?_eq_some_iff]
    refine exists_congr fun earlier => exists_congr fun row => exists_congr fun later => and_congr_right fun split => ?_
    have before : ∀ other ∈ earlier, other.indent.isZero = false → source.unit?.isSome :=
      fun other member => measured other (split ▸ List.mem_append_left _ member)
    rw [Row.firstOffence?_eq_none_iff source.name before]
  · intro count layout text reached line indent leading indented amount step divided
    refine Indent.division?_positive ?_ divided
    cases fixed : layout.unit with
    | none => exact indented
    | some unit => exact (reached.sound unit fixed).1

/-- The third line is blank, the fourth is two levels above the second, and the fifth, uneven too, no longer counts. -/
theorem tokens_iff_well_indented_at_a_jump :
    (Source.mk "jump" [some "if true", some "  if true", some "   ", some "      show 1", some " x"]).tokens.result =
      .error (.indentJump ⟨"jump", 4⟩ 2) := by
  refine ((tokens_iff_well_indented _ (by decide)).2.1 _).mpr
    ⟨[⟨1, "if true".toList⟩, ⟨2, "  if true".toList⟩], ⟨4, "      show 1".toList⟩, [⟨5, " x".toList⟩], ?_, ?_, ?_⟩
  · decide
  · exact ⟨by decide, by decide, by decide, by decide⟩
  · decide

end Source
end Parlance
