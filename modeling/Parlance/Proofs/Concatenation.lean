import Mathlib
import Parlance.Proofs.Node.Extension
import Parlance.Proofs.Node.Reprint
import Parlance.Proofs.Node.Yields

/-! Sources one after the other. The lines of two sources that can be read, and that are indented by the same unit, can
be read together, and the program is that of the first followed by that of the second. -/
namespace Parlance

/-! ### Rows -/

namespace Row

variable {rows more : List Row} {unit : Option Indent}

/-- The row after so many more lines. -/
def later (count : Nat) (row : Row) : Row :=
  ⟨row.number + count, row.text⟩

theorem ofLines_append (first : Nat) (lines more : List RawLine) :
    ofLines first (lines ++ more) = ofLines first lines ++ ofLines (first + lines.length) more := by
  rw [ofLines, List.zipIdx_append, List.filterMap_append]
  rfl

theorem ofLines_later (first count : Nat) (lines : List RawLine) :
    ofLines (first + count) lines = (ofLines first lines).map (later count) := by
  induction lines generalizing first with
  | nil => rfl
  | cons line rest ih =>
    have here : ofLine? (first + count) line = (ofLine? first line).map (later count) := by
      cases line with
      | none => rfl
      | some text =>
        simp only [ofLine?, Option.bind_some]
        split <;> rfl
    rw [ofLines_cons, ofLines_cons, List.map_append, here, Nat.add_right_comm, ih]
    cases ofLine? first line <;> rfl

theorem unit?_append : unit? (rows ++ more) = (unit? rows).or (unit? more) := by
  rw [unit?, List.map_append, List.find?_append]
  rfl

theorem unit?_later (count : Nat) : unit? (rows.map (later count)) = unit? rows := by
  rw [unit?, List.map_map]
  rfl

/-- Rows have the same levels in all units that agree with their own, if they have one. -/
theorem level_agrees (agrees : ∀ u ∈ unit? rows, unit = some u) :
    ∀ row ∈ rows, row.level unit = row.level (unit? rows) := by
  intro row member
  cases zero : row.indent.isZero with
  | true => rw [level, level, Indent.level_of_isZero _ zero, Indent.level_of_isZero _ zero]
  | false =>
    obtain ⟨u, found⟩ := Option.isSome_iff_exists.mp (unit?_measures rows row member zero)
    rw [agrees u found, found]

theorem WellIndented.agrees (fine : WellIndented (unit? rows) 0 rows) (agrees : ∀ u ∈ unit? rows, unit = some u) :
    WellIndented unit 0 rows where
  pure := fine.pure
  alike row member indented u given := by
    obtain ⟨own, found⟩ := Option.isSome_iff_exists.mp (unit?_measures rows row member indented)
    cases (agrees own found).symm.trans given
    exact fine.alike row member indented u found
  whole row member u given := by
    cases zero : row.indent.isZero with
    | true =>
      rw [(Indent.isZero_iff _).mp zero]
      exact Nat.dvd_zero _
    | false =>
      obtain ⟨own, found⟩ := Option.isSome_iff_exists.mp (unit?_measures rows row member zero)
      cases (agrees own found).symm.trans given
      exact fine.whole row member u found
  gradual := by
    rw [List.map_congr_left (level_agrees agrees)]
    exact fine.gradual

theorem WellIndented.later (fine : WellIndented unit 0 rows) (count : Nat) :
    WellIndented unit 0 (rows.map (later count)) where
  pure := List.forall_mem_map.mpr fine.pure
  alike := List.forall_mem_map.mpr fine.alike
  whole := List.forall_mem_map.mpr fine.whole
  gradual := by
    rw [List.map_map]
    exact fine.gradual

theorem WellIndented.append (first : WellIndented unit 0 rows) (second : WellIndented unit 0 more)
    (flat : ∀ row ∈ more.head?, row.level unit = 0) : WellIndented unit 0 (rows ++ more) where
  pure := List.forall_mem_append.mpr ⟨first.pure, second.pure⟩
  alike := List.forall_mem_append.mpr ⟨first.alike, second.alike⟩
  whole := List.forall_mem_append.mpr ⟨first.whole, second.whole⟩
  gradual := by
    rw [List.map_append, ← List.cons_append, List.isChain_append]
    refine ⟨first.gradual, second.gradual.tail, ?_⟩
    intro lower _ upper reached
    rw [List.head?_map, Option.mem_def, Option.map_eq_some_iff] at reached
    obtain ⟨row, begins, rfl⟩ := reached
    rw [flat row begins]
    exact Nat.zero_le _

end Row

/-! ### Groups -/

namespace Source

theorem groups_later (name : String) (count : Nat) {source : Source} {unit : Option Indent}
    (agrees : ∀ u ∈ source.unit?, unit = some u) :
    (source.rows.map (Row.later count)).map (Row.group name unit) =
      source.groups.map (Group.relocate ⟨fun _ => name, (· + count)⟩) := by
  rw [groups, List.map_map, List.map_map]
  refine List.map_congr_left fun row member => ?_
  have level : (row.later count).level unit = row.level source.unit? := Row.level_agrees agrees row member
  have words : (row.later count).words name =
      (row.words source.name).map (Token.relocate ⟨fun _ => name, (· + count)⟩) :=
    Token.ofWords_relocate ⟨fun _ => name, (· + count)⟩ (row.span source.name) (Text.words row.text)
  rw [Function.comp_apply, Function.comp_apply, Row.group, Row.group, level, words]
  rfl

end Source

namespace Statement

open Parlance.Group

theorem Begun.relocate {groups : List Group} (begun : Begun 0 groups) (move : Relocation) :
    Begun 0 (groups.map (Group.relocate move)) := by
  intro group begins
  rw [List.head?_map, Option.mem_def, Option.map_eq_some_iff] at begins
  obtain ⟨own, begins, rfl⟩ := begins
  have leads (keyword : Keyword) : (own.relocate move).leads keyword = own.leads keyword := by
    rw [leads, leads, Group.relocate, List.head?_map]
    cases own.words.head? <;> rfl
  rw [leads, leads]
  exact begun own begins

end Statement

namespace Program

open Statement Parlance.Group

/-- A program that can be read begins at the outermost level, with a statement of its own. -/
theorem readStatements_begun {stop : Span} {groups : List Group} {nodes : List Node}
    (sound : ∀ group ∈ groups, group.Sound) (gradual : Gradual 0 groups)
    (read : (readStatements (stream stop 0 groups)).result = .ok nodes) : Begun 0 groups := by
  cases groups with
  | nil => exact nofun
  | cons group rest =>
    rintro _ ⟨⟩
    have here := sound group List.mem_cons_self
    have rise : group.level ≤ 1 := gradual.tail.1
    have flat : group.level = 0 := by
      by_contra other
      rw [stream_up stop rest (by omega), readStatements_indented _ (.inl rfl)] at read
      cases read
    refine ⟨flat, ?_⟩
    rw [← flat, stream_level, readStatements_line _ _ here.spoken here.plain] at read
    cases first : (Statement.read ⟨group.words, group.span⟩ (stream stop group.level rest)).result with
    | error error =>
      simp only [Parsed.andThen, first] at read
      cases read
    | ok node => exact read_unled here first

/-- Groups with other groups after them that begin with a statement of their own. -/
theorem readStatements_before (move : Relocation) {stop : Span} (last : Span) {groups others : List Group}
    {nodes : List Node} (sound : ∀ group ∈ groups, group.Sound) (begun : Begun 0 others)
    (read : (readStatements (stream stop 0 groups)).result = .ok nodes) :
    (readStatements (stream last 0 (groups.map (Group.relocate move) ++ others))).result =
      (readStatements (stream last 0 others)).result.map (Node.relinedAll move.line nodes ++ ·) := by
  have lower : Lower 0 others := fun group begins => (begun group begins).1.le
  have unled (keyword : Keyword) (continuing : keyword = .otherwiseWord ∨ keyword = .otifWord) :
      Sentence.led? keyword (stream last 0 others) = none := by
    refine led?_none lower fun group begins _ => ?_
    obtain ⟨-, otherwise, otif⟩ := begun group begins
    rcases continuing with rfl | rfl
    · exact otherwise
    · exact otif
  let extension : Extension := ⟨move, stream last 0 others, unled, False⟩
  have follows : extension.Follows (stream stop 0 groups)
      (stream last 0 (groups.map (Group.relocate move) ++ others)) :=
    follows_stream sound lower rfl False.elim 0
  exact (readStatements_extended follows).1 nodes read

end Program

namespace Source

variable {first second : Source}

/-- The lines of two sources, one after the other. -/
def append (name : String) (first second : Source) : Source :=
  ⟨name, first.lines ++ second.lines⟩

theorem rows_append (name : String) :
    (append name first second).rows = first.rows ++ second.rows.map (Row.later first.lines.length) := by
  rw [rows, append, Row.ofLines_append, Row.ofLines_later]
  rfl

/-- The common unit of two sources, for each of which it is the own unit if there is one. -/
theorem unit?_agrees (name : String) (units : ∀ u ∈ first.unit?, ∀ v ∈ second.unit?, u = v) :
    (∀ u ∈ first.unit?, (append name first second).unit? = some u) ∧
      ∀ v ∈ second.unit?, (append name first second).unit? = some v := by
  have whole : (append name first second).unit? = first.unit?.or second.unit? := by
    rw [unit?, rows_append, Row.unit?_append, Row.unit?_later]
    rfl
  rw [whole]
  constructor
  · intro u found
    rw [Option.mem_def.mp found]
    rfl
  · intro v found
    cases own : first.unit? with
    | none => exact found
    | some u => rw [units u own v found, Option.some_or]

theorem groups_append (name : String) (units : ∀ u ∈ first.unit?, ∀ v ∈ second.unit?, u = v) :
    (append name first second).groups = first.groups.map (Group.relocate ⟨fun _ => name, fun line => line⟩) ++
      second.groups.map (Group.relocate ⟨fun _ => name, (· + first.lines.length)⟩) := by
  obtain ⟨one, two⟩ := unit?_agrees name units
  have same : first.rows.map (Row.later 0) = first.rows := List.map_id _
  have before := groups_later name 0 one
  rw [same] at before
  rw [groups, rows_append, List.map_append]
  exact congrArg₂ (· ++ ·) before (groups_later name first.lines.length two)

/-- Two sources that can be cut into tokens can be so together, if the second begins at the outermost level. -/
theorem tokens_append (name : String) {tokens others : List Token} (one : first.tokens.result = .ok tokens)
    (two : second.tokens.result = .ok others) (units : ∀ u ∈ first.unit?, ∀ v ∈ second.unit?, u = v)
    (flat : ∀ group ∈ second.groups.head?, group.level = 0) :
    (append name first second).tokens.result =
      .ok (Group.stream ⟨name, first.lines.length + second.lines.length⟩ 0 (append name first second).groups) := by
  obtain ⟨agrees, agreesToo⟩ := unit?_agrees name units
  have readable : ∀ line ∈ (append name first second).lines, line.isSome :=
    List.forall_mem_append.mpr ⟨tokens_readable one, tokens_readable two⟩
  have fine : Row.WellIndented (append name first second).unit? 0 (append name first second).rows := by
    rw [rows_append]
    refine ((tokens_wellIndented one).agrees agrees).append (((tokens_wellIndented two).agrees agreesToo).later _) ?_
    intro row begins
    rw [List.head?_map, Option.mem_def, Option.map_eq_some_iff] at begins
    obtain ⟨own, begins, rfl⟩ := begins
    have level := flat (own.group second.name second.unit?) (by rw [groups, List.head?_map, begins]; rfl)
    exact (Row.level_agrees agreesToo own (List.mem_of_mem_head? begins)).trans level
  have result := tokens_of_wellIndented readable fine
  rwa [append, List.length_append] at result

theorem program_append {before after : List Node} (name : String) (one : first.program.result = .ok before)
    (two : second.program.result = .ok after) (units : ∀ u ∈ first.unit?, ∀ v ∈ second.unit?, u = v) :
    (append name first second).program.result =
      .ok (before ++ Node.relinedAll (· + first.lines.length) after) := by
  obtain ⟨tokens, lexed, read⟩ := program_parsed one
  obtain ⟨others, lexedToo, readToo⟩ := program_parsed two
  obtain ⟨rfl, -⟩ := tokens_stream lexed
  obtain ⟨rfl, gradual⟩ := tokens_stream lexedToo
  rw [Program.read_result] at read readToo
  let move : Relocation := ⟨fun _ => name, (· + first.lines.length)⟩
  have begun := Program.readStatements_begun second.groups_sound gradual readToo
  have whole := tokens_append name lexed lexedToo units fun group begins => (begun group begins).1
  have later := Program.readStatements_relocate move ⟨second.name, second.lines.length⟩ second.groups_sound
  rw [readToo, ← Group.stream_relocate] at later
  have seam := Program.readStatements_before ⟨fun _ => name, fun line => line⟩
    (Span.relocate move ⟨second.name, second.lines.length⟩) first.groups_sound (begun.relocate move) read
  rw [later, Node.relinedAll_same] at seam
  rw [program_result whole, groups_append name units, Nat.add_comm]
  exact congrArg (Except.mapError ProgramError.ungrammatical) seam

set_option maxRecDepth 20000 in
/-- The first source ends two levels up, in the middle of a loop; the second begins with a blank line. -/
theorem program_append_after_blocks :
    ∃ (first second : Source) (before after : List Node), first.program.result = .ok before ∧
      second.program.result = .ok after ∧ first.unit? = some ⟨1, 0⟩ ∧ second.unit? = some ⟨1, 0⟩ ∧
      (append "both" first second).program.result = .ok
        [.loop (.literal (.boolean true) 1) [.conditional (.literal (.boolean false) 2) [.breaks 3] [] 2] [] 1,
          .conditional (.literal (.boolean true) 5) [.returns (.literal (.number 1) 6) 6] [.breaks 8] 5] := by
  have one : (Source.mk "a" [some "while true", some "\tif false", some "\t\tbreak"]).program.result =
      .ok [.loop (.literal (.boolean true) 1) [.conditional (.literal (.boolean false) 2) [.breaks 3] [] 2] [] 1] := by
    cbv
  have two : (Source.mk "b" [some "  ", some "if true", some "\treturns 1", some "otherwise",
      some "\tbreak"]).program.result =
      .ok [.conditional (.literal (.boolean true) 2) [.returns (.literal (.number 1) 3) 3] [.breaks 5] 2] := by
    cbv
  exact ⟨_, _, _, _, one, two, by decide, by decide, program_append "both" one two (by decide)⟩

end Source

end Parlance
