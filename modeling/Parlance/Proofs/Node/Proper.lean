import Parlance.Node.Statement
import Parlance.Proofs.Node.Written
import Parlance.Proofs.Sentence

/-! Statements as they stand in a program, and the readers of those that take up one line. -/
namespace Parlance

/-- An error that the reading of groups can end with: one about words, or about a line that is indented for nothing. -/
def GrammarError.Tolerable (error : GrammarError) (depth : Nat) (groups : List Group) : Prop :=
  error.isVerbal = true ∨ ∃ span, error = .unexpectedIndentation span ∧ Group.Rises depth groups span

namespace GrammarError

variable {error : GrammarError} {depth : Nat} {own rest : List Group} {group : Group}

theorem Tolerable.later (tolerable : error.Tolerable group.level rest) : error.Tolerable depth (group :: rest) := by
  rcases tolerable with verbal | ⟨span, same, rises⟩
  · exact .inl verbal
  · exact .inr ⟨span, same, .later rises⟩

theorem Tolerable.anywhere (tolerable : error.Tolerable depth rest) (lower : Group.Lower depth rest) (other : Nat) :
    error.Tolerable other rest := by
  rcases tolerable with verbal | ⟨span, same, rises⟩
  · exact .inl verbal
  · exact .inr ⟨span, same, rises.anywhere lower other⟩

theorem Tolerable.append (tolerable : error.Tolerable depth rest) (settled : Group.Settled depth own rest) :
    error.Tolerable depth (own ++ rest) := by
  rcases settled with rfl | lower
  · exact tolerable
  · have anywhere := tolerable.anywhere lower
    generalize depth = level
    induction own generalizing level with
    | nil => exact anywhere level
    | cons group own ih => exact .later (ih group.level)

end GrammarError

/-- What a statement is like by itself: its expressions are written on its line, the blocks that it always opens are not
empty, and it gives back nothing only where its line says no more than that. -/
def Node.Proper (all : List Group) : Node → Prop
  | .conditional condition thenBlock _ line => condition.WrittenOn line ∧ thenBlock ≠ []
  | .loop condition body _ line => condition.WrittenOn line ∧ body ≠ []
  | .definition _ _ body _ _ => body ≠ []
  | .assignment target value line => target.WrittenOn line ∧ value.WrittenOn line
  | .returns value line => value.WrittenOn line ∨
      value = .literal .nothing line ∧
        ∃ group ∈ all, group.span.line = line ∧ group.words.map Token.kind = [.keyword .returnsWord]
  | .breaks _ => True
  | .call callee arguments line => (Node.call callee arguments line).WrittenOn line
  | .identifier name line => (Node.identifier name line).WrittenOn line
  | .literal value line => (Node.literal value line).WrittenOn line

namespace Node

theorem WrittenOn.line_eq {line : Nat} {node : Node} (written : node.WrittenOn line) : node.line = line := by
  cases node with
  | call => exact written.1
  | identifier => exact written
  | literal => exact written.1
  | assignment | conditional | loop | breaks | definition | returns => exact written.elim

variable {all : List Group} {node : Node}

theorem Proper.blocks (proper : node.Proper all) : ∀ block ∈ node.blocks, block ≠ [] := by
  cases node with
  | conditional | loop => exact List.forall_mem_singleton.mpr proper.2
  | definition => exact List.forall_mem_singleton.mpr proper
  | call | identifier | literal | assignment | breaks | returns => exact nofun

/-- Each expression of a statement is written on the statement's line, unless the line is `returns` and no more. -/
theorem Proper.expressions (proper : node.Proper all) : ∀ expression ∈ node.expressions,
    expression.WrittenOn node.line ∨ expression = .literal .nothing node.line ∧ node = .returns expression node.line ∧
      ∃ group ∈ all, group.span.line = node.line ∧ group.words.map Token.kind = [.keyword .returnsWord] := by
  cases node with
  | conditional | loop => exact List.forall_mem_singleton.mpr (.inl proper.1)
  | assignment => exact List.forall_mem_cons.mpr ⟨.inl proper.1, List.forall_mem_singleton.mpr (.inl proper.2)⟩
  | call => exact List.forall_mem_singleton.mpr (.inl ⟨rfl, proper.2⟩)
  | identifier => exact List.forall_mem_singleton.mpr (.inl rfl)
  | literal => exact List.forall_mem_singleton.mpr (.inl ⟨rfl, proper.2⟩)
  | breaks | definition => exact nofun
  | returns value line =>
    refine List.forall_mem_singleton.mpr (proper.imp id ?_)
    rintro ⟨rfl, bare⟩
    exact ⟨rfl, rfl, bare⟩

theorem Proper.lines (proper : node.Proper all) :
    ∀ expression ∈ node.expressions, ∀ inner ∈ expression.nodes, inner.line = node.line := by
  intro expression member inner inside
  rcases proper.expressions expression member with written | ⟨rfl, -, -⟩
  · exact (written.nodes inner inside).1
  · rw [List.mem_singleton.mp inside]
    rfl

theorem Proper.nothing (proper : node.Proper all) {expression : Node} (member : expression ∈ node.expressions)
    {line : Nat} (inside : .literal .nothing line ∈ expression.nodes) :
    node = .returns (.literal .nothing line) line ∧
      ∃ group ∈ all, group.span.line = line ∧ group.words.map Token.kind = [.keyword .returnsWord] := by
  rcases proper.expressions expression member with written | ⟨rfl, same, bare⟩
  · exact absurd rfl ((written.nodes _ inside).2 line)
  · cases List.mem_singleton.mp inside
    exact ⟨same, bare⟩

/-- A statement without blocks of its own. -/
structure Flat (all : List Group) (line : Nat) (node : Node) : Prop where
  line : node.line = line
  statements : node.statements = [node]
  inside : ∀ continues depth, node.inside continues depth = []
  proper : node.Proper all

theorem WrittenOn.flat {all : List Group} {line : Nat} {node : Node} (written : node.WrittenOn line) :
    node.Flat all line := by
  have same := written.line_eq
  subst same
  cases node with
  | call | identifier | literal => exact ⟨rfl, rfl, fun _ _ => rfl, written⟩
  | assignment | conditional | loop | breaks | definition | returns => exact written.elim

end Node

namespace Statement

open Traced Expression

variable {all : List Group} {line : Nat}

theorem readPlain_meets (all : List Group) {first : Token} {words : List Token} (stop : Span)
    (here : first.span.line = line) (on : ∀ token ∈ words, token.span.line = line) :
    (readPlain first words stop).Meets (fun node => node.Flat all line ∧ Begun words) (·.isVerbal = true) := by
  unfold readPlain
  split
  · rename_i split cut
    obtain ⟨onBefore, onAfter⟩ := Split.at?_on cut on
    refine meets_bind (readName_meets onBefore) fun target named => ?_
    refine meets_bind (expect_meets split.after stop _ onAfter) fun value given => meets_pure ?_
    refine ⟨⟨here, rfl, fun _ _ => rfl, ?_⟩, named.2.of_cut cut⟩
    simpa only [Node.Proper, here] using ⟨named.1, given.1⟩
  · exact (read_meets words stop on).weaken (fun node read => ⟨read.1.flat, read.2⟩) fun _ verbal => verbal

theorem readReturns_meets {group : Group} (known : group ∈ all) {keyword : Token} {words : List Token}
    (spelled : group.words = keyword :: words) (kind : keyword.kind = .keyword .returnsWord)
    (here : keyword.span.line = group.span.line) (on : ∀ token ∈ words, token.span.line = group.span.line) :
    (readReturns keyword words group.span).Meets (·.Flat all group.span.line) (·.isVerbal = true) := by
  unfold readReturns
  dsimp only
  split
  · rename_i bare
    refine meets_pure ⟨here, rfl, fun _ _ => rfl, .inr ⟨rfl, group, known, here.symm, ?_⟩⟩
    simp [spelled, kind, List.isEmpty_iff.mp bare]
  · refine meets_bind (read_meets words group.span on) fun value written => meets_pure ?_
    exact ⟨here, rfl, fun _ _ => rfl, .inl (here.symm ▸ written.1)⟩

theorem readHeading_verbal {keyword : Token} {words : List Token} {error : GrammarError}
    (failed : readHeading keyword words = .error error) : error.isVerbal = true := by
  unfold readHeading at failed
  split at failed
  · cases failed
    rfl
  · rename_i ofSplit _
    split at failed
    · cases failed
      rfl
    · rename_i meanSplit _
      split at failed
      · cases failed
        rfl
      · cases named : joinWords ofSplit.before ofSplit.found.span with
        | error other =>
          rw [named] at failed
          cases failed
          exact joinWords_verbal named
        | ok name =>
          rw [named] at failed
          cases given : joinWords meanSplit.before meanSplit.found.span with
          | error other =>
            rw [given] at failed
            cases failed
            exact joinWords_verbal given
          | ok param =>
            rw [given] at failed
            cases failed

end Statement
end Parlance
