import Mathlib
import Parlance.Proofs.Node.Structure
import Parlance.Proofs.Node.Yields

/-! A program is written line by line. Each row of its source holds a statement of it, or an `otherwise` that opens a
block of one, and the depth of that in the program is the level of the row. -/
namespace Parlance

theorem Group.leads_unique {group : Group} {keyword : Keyword} (leads : group.leads keyword = true) {other : Keyword}
    (apart : other ≠ keyword) : group.leads other = false := by
  cases spelled : group.words with
  | nil => simp [Group.leads, spelled]
  | cons first words =>
    have kind : first.kind = .keyword keyword := by
      simpa [Group.leads_eq spelled, Token.isKeyword] using leads
    simpa [Group.leads_eq spelled, Token.isKeyword, kind] using apart.symm

/-- The statements among the items of an outline stand on the lines that do not begin with `otherwise`. -/
theorem Item.fits_lines {items : List Item} {groups : List Group} (fits : List.Forall₂ Item.Fits items groups) :
    (items.filterMap Item.node?).map Node.line =
      (groups.filter (!·.leads .otherwiseWord)).map (·.span.line) := by
  induction fits with
  | nil => rfl
  | @cons item group items groups fit _ ih =>
    cases item with
    | statement node depth =>
      obtain ⟨line, -, plain, -⟩ := fit
      simp [Item.node?, plain, line, ih]
    | continuation node depth =>
      obtain ⟨line, -, leads⟩ := fit
      have plain : group.leads .otherwiseWord = false := Group.leads_unique leads nofun
      simp [Item.node?, plain, line, ih]
    | otherwise block depth =>
      obtain ⟨-, -, leads⟩ := fit
      rw [List.filterMap_cons_none rfl, ih]
      simp [leads]

namespace Source

variable {source : Source} {program : List Node}

/-- Whether the line begins with `otif`. -/
def continues (source : Source) (line : Nat) : Bool :=
  source.groups.any fun group => group.span.line == line && group.leads .otifWord

theorem groups_lines (source : Source) : source.groups.map (·.span.line) = source.rows.map Row.number := by
  simp [groups, Row.group, Row.span, Function.comp_def]

theorem rows_increasing (source : Source) : (source.rows.map Row.number).Pairwise (· < ·) :=
  Row.ofLines_increasing 1 source.lines

theorem group_unique {group other : Group} (member : group ∈ source.groups) (inside : other ∈ source.groups)
    (same : other.span.line = group.span.line) : other = group := by
  have apart : (source.groups.map (·.span.line)).Nodup := by
    rw [groups_lines]
    exact source.rows_increasing.imp Nat.ne_of_lt
  exact List.inj_on_of_nodup_map apart inside member same

theorem known (source : Source) : Statement.Known source.groups source.continues where
  sound := source.groups_sound
  continues group member := by
    rw [Bool.eq_iff_iff, continues, List.any_eq_true]
    constructor
    · rintro ⟨other, inside, given⟩
      obtain ⟨same, leads⟩ := (Bool.and_eq_true _ _).mp given
      rwa [group_unique member inside (beq_iff_eq.mp same)] at leads
    · exact fun leads => ⟨group, member, by simp [leads]⟩

theorem tokens_read {tokens : List Token} (lexed : source.tokens.result = .ok tokens) :
    (Program.read tokens).Meets
      (fun program _ => List.Forall₂ Item.Fits (Node.items source.continues .statement 0 program) source.groups ∧
        ∀ node ∈ Node.statementsAll program, node.Proper source.groups)
      (·.Tolerable 0 source.groups) := by
  obtain ⟨rfl, gradual⟩ := tokens_stream lexed
  have ahead : Group.Ahead source.groups 0 source.groups := ⟨fun _ member => member, gradual⟩
  refine Parsed.meets_andThen (Program.readStatements_follows _ source.known ahead) ?_
  exact fun program rest within read => Parsed.meets_tell (Parsed.meets_done read)

/-- Every line of the source is read, and nothing is read twice. The statements of a program, each before those in its
blocks, are on increasing lines; with the lines that begin with `otherwise` these are all lines that are not blank. Row
by row, the items of the program's outline are what the source has there: a statement at a depth that is the row's
level, an `otif` or an `otherwise` at the level of what it is attached to. No block is empty, and what a statement's
expressions are made of is on the statement's own line. -/
theorem program_line_by_line (read : source.program.result = .ok program) :
    (∀ line ∈ source.lines, line.isSome) ∧
    ((Node.statementsAll program).map Node.line).Pairwise (· < ·) ∧
    (source.rows.map Row.number).Pairwise (· < ·) ∧
    ((Node.statementsAll program).map Node.line ++
      (source.groups.filter (·.leads .otherwiseWord)).map (·.span.line)).Perm (source.rows.map Row.number) ∧
    (Node.items source.continues .statement 0 program).filterMap Item.node? = Node.statementsAll program ∧
    List.Forall₂ (fun item row => item.Fits (row.group source.name source.unit?))
      (Node.items source.continues .statement 0 program) source.rows ∧
    ∀ statement ∈ Node.statementsAll program, (∀ block ∈ statement.blocks, block ≠ []) ∧
      ∀ expression ∈ statement.expressions, ∀ node ∈ expression.nodes, node.line = statement.line := by
  obtain ⟨tokens, lexed, parsed⟩ := program_parsed read
  obtain ⟨fits, proper⟩ := (tokens_read lexed).ok program parsed
  have outline : (Node.items source.continues .statement 0 program).filterMap Item.node? = Node.statementsAll program :=
    Node.items_statements _ _ (fun _ _ => rfl) 0 program
  have lines : (Node.statementsAll program).map Node.line =
      (source.groups.filter (!·.leads .otherwiseWord)).map (·.span.line) := outline ▸ Item.fits_lines fits
  have increasing : (source.groups.map (·.span.line)).Pairwise (· < ·) := source.groups_lines ▸ source.rows_increasing
  refine ⟨tokens_readable lexed, ?_, source.rows_increasing, ?_, outline, List.forall₂_map_right_iff.mp fits, ?_⟩
  · rw [lines]
    exact increasing.sublist (List.filter_sublist.map _)
  · rw [lines, ← List.map_append, ← source.groups_lines]
    exact (List.perm_append_comm.trans (List.filter_append_perm _ _)).map _
  · exact fun statement member => ⟨(proper statement member).blocks, (proper statement member).lines⟩

set_option maxRecDepth 20000 in
/-- A loop with an `otherwise` in a conditional that an `otif` continues, with a blank line inside. -/
theorem program_line_by_line_attached :
    ∃ (source : Source) (program : List Node), source.program.result = .ok program ∧
      source.rows.map (·.level source.unit?) = [0, 1, 2, 1, 2, 0, 1] ∧
      (Node.statementsAll program).map Node.line = [1, 2, 4, 6, 7, 8] ∧
      ((Node.statementsAll program).map Node.line ++
        (source.groups.filter (·.leads .otherwiseWord)).map (·.span.line)).Perm (source.rows.map Row.number) ∧
      List.Forall₂ (fun item row => item.Fits (row.group source.name source.unit?))
        (Node.items source.continues .statement 0 program) source.rows := by
  have read : (Source.mk "s" [some "if true", some "  while false", some " ", some "    break", some "  otherwise",
      some "    returns", some "otif false", some "  the x is 1"]).program.result =
      .ok [.conditional (.literal (.boolean true) 1)
        [.loop (.literal (.boolean false) 2) [.breaks 4] [.returns (.literal .nothing 6) 6] 2]
        [.conditional (.literal (.boolean false) 7) [.assignment (.identifier "x" 8) (.literal (.number 1) 8) 8] [] 7]
        1] := by
    cbv
  obtain ⟨-, -, -, all, -, outline, -⟩ := program_line_by_line read
  exact ⟨_, _, read, by decide +kernel, rfl, all, outline⟩

end Source
end Parlance
