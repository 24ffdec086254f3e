import Parlance.Proofs.Node.Names
import Parlance.Proofs.Node.Reprint

/-! The text of lines. A source that is made of lines of words, each indented by its level, has those lines for its
rows: it fixes the unit that the text was made with, it breaks no rule of indentation, and its groups hold the lines. -/
namespace Parlance

namespace Indent

def times (count : Nat) (unit : Indent) : Indent :=
  ⟨count * unit.tabs, count * unit.spaces⟩

theorem write_indents (count : Nat) (unit : Indent) :
    ∀ c ∈ (List.replicate count unit.write).flatten, isIndentation c = true := by
  intro c member
  obtain ⟨part, inside, within⟩ := List.mem_flatten.mp member
  rw [List.eq_of_mem_replicate inside] at within
  rcases List.mem_append.mp within with tab | space
  · rw [List.eq_of_mem_replicate tab]
    rfl
  · rw [List.eq_of_mem_replicate space]
    rfl

theorem count_write (count : Nat) (unit : Indent) :
    (List.replicate count unit.write).flatten.count '\t' = count * unit.tabs ∧
      (List.replicate count unit.write).flatten.count ' ' = count * unit.spaces := by
  simp [List.count_flatten, write, List.count_replicate]

theorem leading_write (count : Nat) (unit : Indent) {c : Char} (text : List Char) (shown : Text.isBlank c = false) :
    leading ((List.replicate count unit.write).flatten ++ c :: text) = unit.times count := by
  have stops : isIndentation c = false := by
    by_contra indents
    rw [Text.isBlank_of_isIndentation (by simpa using indents)] at shown
    cases shown
  obtain ⟨tabs, spaces⟩ := count_write count unit
  rw [leading, List.takeWhile_append_of_pos (write_indents count unit), List.takeWhile_cons_of_neg (by simp [stops]),
    List.append_nil, tabs, spaces]
  rfl

theorem times_isZero {unit : Indent} (indents : unit.isZero = false) (count : Nat) :
    (unit.times count).isZero = (count == 0) := by
  simp only [isZero, Bool.and_eq_false_iff, beq_eq_false_iff_ne] at indents
  rw [Bool.eq_iff_iff]
  simp only [isZero, times, Bool.and_eq_true, beq_iff_eq, Nat.mul_eq_zero]
  omega

theorem times_amount (unit : Indent) (count : Nat) : (unit.times count).amount = count * unit.amount := by
  simp [times, amount, Nat.mul_add]

end Indent

/-- A line with something on it. -/
structure Node.Line.Filled (line : Node.Line) : Prop where
  spoken : line.words ≠ []
  tight : ∀ word ∈ line.words, Text.Tight word

/-- Lines that start at a level, do not go below it and go up one level at a time, with something on each. -/
structure Node.Laid (level : Nat) (lines : List Node.Line) : Prop where
  filled : ∀ line ∈ lines, line.Filled
  starts : ∀ line ∈ lines.head?, line.level = level
  above : ∀ line ∈ lines, level ≤ line.level
  gradual : lines.IsChain fun lower upper => upper.level ≤ lower.level + 1

/-- Lines with something on each, of which none is more than one level above the one before; the first may be above the
outermost level. -/
structure Node.Climbing (lines : List Node.Line) : Prop where
  filled : ∀ line ∈ lines, line.Filled
  levels : (0 :: lines.map Line.level).IsChain fun lower upper => upper ≤ lower + 1

namespace Node

theorem Laid.climbing {lines : List Line} (laid : Laid 0 lines) : Climbing lines where
  filled := laid.filled
  levels := by
    refine List.isChain_cons.mpr ⟨fun level first => ?_, (List.isChain_map _).mpr laid.gradual⟩
    rw [List.head?_map] at first
    obtain ⟨line, begins, rfl⟩ := Option.map_eq_some_iff.mp first
    rw [laid.starts line begins]
    exact Nat.zero_le _

end Node

namespace Node.Line

variable {line : Node.Line} {unit : Indent}

theorem text_toList (unit : Indent) (line : Node.Line) : (line.text unit).toList =
    (List.replicate line.level unit.write).flatten ++ (" ".intercalate line.words).toList := by
  simp [text]

theorem Filled.begins (filled : line.Filled) :
    ∃ c rest, (" ".intercalate line.words).toList = c :: rest ∧ Text.isBlank c = false := by
  obtain ⟨word, words, same⟩ := List.exists_cons_of_ne_nil filled.spoken
  have tight := filled.tight word (same ▸ List.mem_cons_self)
  obtain ⟨c, rest, begins, member⟩ := Text.intercalate_begins (words.map String.toList) tight.1
  refine ⟨c, rest, ?_, tight.2 c member⟩
  rw [same, String.toList_intercalate]
  exact begins

theorem Filled.words (filled : line.Filled) (unit : Indent) :
    Text.words (line.text unit).toList = line.words.map Text.Word.whole := by
  have blanks : ∀ c ∈ (List.replicate line.level unit.write).flatten, Text.isBlank c = true :=
    fun c member => Text.isBlank_of_isIndentation (Indent.write_indents _ _ c member)
  rw [text_toList, Text.words_blanks blanks, Text.words_intercalate filled.tight]

theorem Filled.indent (filled : line.Filled) (unit : Indent) :
    Indent.leading (line.text unit).toList = unit.times line.level := by
  obtain ⟨c, rest, begins, shown⟩ := filled.begins
  rw [text_toList, begins, Indent.leading_write _ _ _ shown]

theorem Filled.visible (filled : line.Filled) (unit : Indent) : Text.allBlank (line.text unit).toList = false := by
  obtain ⟨c, rest, begins, shown⟩ := filled.begins
  rw [text_toList, begins]
  simp [Text.allBlank, shown]

theorem Filled.unbroken (filled : line.Filled) (unit : Indent) :
    '\n' ∉ (line.text unit).toList ∧ '\r' ∉ (line.text unit).toList := by
  have chars : ∀ c ∈ (line.text unit).toList, Indent.isIndentation c = true ∨ Text.isBlank c = false := by
    intro c member
    rw [text_toList] at member
    rcases List.mem_append.mp member with indents | spoken
    · exact .inl (Indent.write_indents _ _ c indents)
    · rcases Text.mem_intercalate spoken with rfl | ⟨word, inside, within⟩
      · exact .inl rfl
      · exact .inr ((filled.tight word inside).2 c within)
  refine ⟨fun member => ?_, fun member => ?_⟩ <;> rcases chars _ member with indents | shown
  · cases indents
  · cases shown
  · cases indents
  · cases shown

end Node.Line

namespace Row

variable {unit : Indent} {rows : List Row} {lines : List Node.Line}

/-- The row has the text of the line. -/
def Shows (unit : Indent) (row : Row) (line : Node.Line) : Prop :=
  row.text = (line.text unit).toList

theorem ofLines_shows (unit : Indent) (filled : ∀ line ∈ lines, line.Filled) (first : Nat) :
    List.Forall₂ (Shows unit) (ofLines first (lines.map fun line => some (line.text unit))) lines := by
  induction lines generalizing first with
  | nil => exact .nil
  | cons line rest ih =>
    obtain ⟨here, later⟩ := List.forall_mem_cons.mp filled
    rw [List.map_cons, ofLines_cons, ofLine?_visible first (here.visible unit)]
    exact .cons rfl (ih later (first + 1))

theorem indents_shown (filled : ∀ line ∈ lines, line.Filled) (shown : List.Forall₂ (Shows unit) rows lines) :
    rows.map indent = (lines.map Node.Line.level).map unit.times := by
  induction shown with
  | nil => rfl
  | @cons row line rows lines same _ ih =>
    obtain ⟨here, later⟩ := List.forall_mem_cons.mp filled
    rw [List.map_cons, List.map_cons, List.map_cons, ih later, indent, same, here.indent]

/-- The first level that is not the outermost is the one above it, so its indentation is the unit. -/
theorem find?_times {levels : List Nat} (indents : unit.isZero = false)
    (gradual : (0 :: levels).IsChain fun lower upper => upper ≤ lower + 1) :
    (levels.map unit.times).find? (!·.isZero) = if levels.all (· == 0) then none else some unit := by
  induction levels with
  | nil => rfl
  | cons level rest ih =>
    obtain ⟨rise, later⟩ := List.isChain_cons_cons.mp gradual
    obtain rfl | rfl : level = 0 ∨ level = 1 := by omega
    · simpa [Indent.times_isZero indents] using ih later
    · have once : unit.times 1 = unit := by simp [Indent.times]
      simp [once, indents]

section

variable (indents : unit.isZero = false) (climbing : Node.Climbing lines) (shown : List.Forall₂ (Shows unit) rows lines)

include indents climbing shown

theorem unit?_shown : unit? rows = if (lines.map Node.Line.level).all (· == 0) then none else some unit := by
  rw [unit?, indents_shown climbing.filled shown, find?_times indents climbing.levels]

theorem level_shown {line : Node.Line} (member : line ∈ lines) :
    (unit.times line.level).level (unit? rows) = line.level := by
  rw [unit?_shown indents climbing shown]
  split
  · rename_i outermost
    have zero : line.level = 0 := by
      simpa using List.all_eq_true.mp outermost _ (List.mem_map_of_mem member)
    rw [zero, Indent.level]
  · have positive : 0 < unit.amount := by
      simpa [Indent.isZero, Indent.amount, Nat.pos_iff_ne_zero, imp_iff_not_or] using indents
    rw [Indent.level, Indent.times_amount, Nat.mul_div_cancel _ positive]

theorem levels_shown : rows.map (level (unit? rows)) = lines.map Node.Line.level := by
  have scales : rows.map (level (unit? rows)) = (rows.map indent).map (Indent.level (unit? rows)) := by
    rw [List.map_map]
    rfl
  rw [scales, indents_shown climbing.filled shown, List.map_map, List.map_map]
  exact List.map_congr_left fun line member => level_shown indents climbing shown member

theorem holds_shown (name : String) : List.Forall₂ Group.Holds (rows.map (group name (unit? rows))) lines := by
  have filled := climbing.filled
  have levels : ∀ line ∈ lines, (unit.times line.level).level (unit? rows) = line.level :=
    fun line member => level_shown indents climbing shown member
  -- The unit is that of all the rows, also for those that are left in a step of the induction.
  generalize unit? rows = measured at levels
  rw [List.forall₂_map_left_iff]
  clear climbing
  induction shown with
  | nil => exact .nil
  | @cons row line rows lines same _ ih =>
    obtain ⟨here, later⟩ := List.forall_mem_cons.mp filled
    obtain ⟨level, further⟩ := List.forall_mem_cons.mp levels
    refine .cons ⟨?_, ?_⟩ (ih later further)
    · rw [group, Row.level, indent, same, here.indent, level]
    · rw [group, Row.words, same, here.words]

theorem wellIndented_shown (unmixed : unit.isMixed = false) : WellIndented (unit? rows) 0 rows := by
  have scaled : ∀ row ∈ rows, ∃ count, row.indent = unit.times count := by
    intro row member
    have inside := List.mem_map_of_mem (f := indent) member
    rw [indents_shown climbing.filled shown] at inside
    obtain ⟨count, -, same⟩ := List.mem_map.mp inside
    exact ⟨count, same.symm⟩
  have measured : ∀ u ∈ unit? rows, u = unit := by
    intro u given
    rw [unit?_shown indents climbing shown] at given
    split at given
    · cases given
    · cases given
      rfl
  refine ⟨fun row member => ?_, fun row member indented u given => ?_, fun row member u given => ?_, ?_⟩
  · obtain ⟨count, same⟩ := scaled row member
    simp only [Indent.isMixed, Bool.and_eq_false_iff, decide_eq_false_iff_not, Nat.not_lt, Nat.le_zero] at unmixed
    rw [same]
    exact unmixed.imp (fun zero => by simp [Indent.times, zero]) fun zero => by simp [Indent.times, zero]
  · obtain ⟨count, same⟩ := scaled row member
    have some : count ≠ 0 := by simpa [same, Indent.times_isZero indents] using indented
    rw [measured u given, same]
    simp only [Indent.SameKind, Indent.times, Nat.mul_eq_zero, some, false_or]
  · obtain ⟨count, same⟩ := scaled row member
    rw [measured u given, same, Indent.times_amount]
    exact Nat.dvd_mul_left _ _
  · rw [levels_shown indents climbing shown]
    exact climbing.levels

end

end Row

namespace Source

variable {unit : Indent} {lines : List Node.Line}

theorem tokens_shown {source : Source} (readable : ∀ line ∈ source.lines, line.isSome) (indents : unit.isZero = false)
    (unmixed : unit.isMixed = false) (climbing : Node.Climbing lines)
    (shown : List.Forall₂ (Row.Shows unit) source.rows lines) :
    source.tokens.result = .ok (Group.stream ⟨source.name, source.lines.length⟩ 0 source.groups) ∧
      List.Forall₂ Group.Holds source.groups lines := by
  constructor
  · exact tokens_of_wellIndented readable (Row.wellIndented_shown indents climbing shown unmixed)
  · exact Row.holds_shown indents climbing shown source.name

theorem ofText_lines {texts : List String} (whole : ∀ text ∈ texts, '\n' ∉ text.toList ∧ '\r' ∉ text.toList)
    (name : String) : (ofText name (String.join (texts.map (· ++ "\n")))).lines = texts.map some := by
  have joined : (String.join (texts.map (· ++ "\n"))).toList = (texts.map String.toList).flatMap (· ++ ['\n']) := by
    simp [String.toList_join, List.flatMap_map]
  rw [ofText, RawLine.ofText, joined, Text.splitLines_joined (List.forall_mem_map.mpr whole), List.map_map]
  simp [Function.comp_def]

/-- The text of lines is read as groups that hold them. -/
theorem tokens_typeset (indents : unit.isZero = false) (unmixed : unit.isMixed = false) (laid : Node.Laid 0 lines)
    (name : String) :
    ∃ stop own, (ofText name (String.join (lines.map fun line => line.text unit ++ "\n"))).tokens.result =
      .ok (Group.stream stop 0 own) ∧ List.Forall₂ Group.Holds own lines := by
  have whole : ∀ text ∈ lines.map (Node.Line.text unit), '\n' ∉ text.toList ∧ '\r' ∉ text.toList :=
    List.forall_mem_map.mpr fun line member => (laid.filled line member).unbroken unit
  have cut : (ofText name (String.join (lines.map fun line => line.text unit ++ "\n"))).lines =
      lines.map fun line => some (line.text unit) := by
    have joined := ofText_lines whole name
    rw [List.map_map, List.map_map] at joined
    exact joined
  have shown := Row.ofLines_shows unit laid.filled 1
  rw [← cut] at shown
  refine ⟨_, _, tokens_shown ?_ indents unmixed laid.climbing shown⟩
  rw [cut]
  exact List.forall_mem_map.mpr fun _ _ => rfl

end Source
end Parlance
