import Parlance.Proofs.Node.Outline
import Parlance.Proofs.Node.Spell
import Parlance.Proofs.Node.Yields

/-! Statements whose words can be known from the tree. Those that are read from legible tokens are such statements. -/
namespace Parlance

/-- Some legible words stand for the expression. -/
def Node.Spoken (node : Node) : Prop :=
  ∃ words, Token.Legible words ∧ Expression.Means words node.unlined

/-- Some legible words make up the name. -/
def Text.IsName (name : String) : Prop :=
  ∃ words, Token.Legible words ∧ Token.Names words name

/-- What a statement is like by itself, without its blocks. -/
def Node.Sayable : Node → Prop
  | .conditional condition _ _ _ | .loop condition _ _ _ => condition.Spoken
  | .assignment target value _ => (∃ name line, target = .identifier name line ∧ Text.IsName name) ∧ value.Spoken
  | .definition name params _ site _ => Text.IsName name ∧ (∃ param, params = [param] ∧ Text.IsName param) ∧ site = 0
  | .returns value _ => value.Spoken ∨ ∃ line, value = .literal .nothing line
  | .breaks _ => True
  | .call callee arguments line => (Node.call callee arguments line).Spoken
  | .identifier name line => (Node.identifier name line).Spoken
  | .literal value line => (Node.literal value line).Spoken

namespace Expression

open Token (Legible)

theorem read_spoken {words : List Token} (legible : Legible words) (anchor : Span) :
    (read words anchor).Ensures (·.Spoken) :=
  fun node ok => ⟨words, legible, read_sound words anchor node ok⟩

theorem expect_spoken {words : List Token} (legible : Legible words) (anchor : Span) (context : String) :
    (expect words anchor context).Ensures (·.Spoken) :=
  ensures_expect context (read_spoken legible anchor)

end Expression

theorem Node.Spoken.sayable {node : Node} (spoken : node.Spoken) : node.statements = [node] ∧ node.Sayable := by
  have whole := spoken
  obtain ⟨words, -, means⟩ := spoken
  cases node with
  | call | identifier | literal => exact ⟨rfl, whole⟩
  | assignment | conditional | loop | breaks | definition | returns =>
    cases means with
    | atom atom => cases atom

theorem Node.mem_statements (node : Node) : node ∈ node.statements := by
  cases node <;> exact List.mem_cons_self

theorem Node.forall_mem_statementsAll {property : Node → Prop} (nodes : List Node) :
    (∀ statement ∈ statementsAll nodes, property statement) ↔
      ∀ node ∈ nodes, ∀ statement ∈ node.statements, property statement := by
  induction nodes with
  | nil => simp [statementsAll]
  | cons node rest ih => simp only [statementsAll, List.forall_mem_append, List.forall_mem_cons, ih]

/-- The statement can be said, or there is nothing to it. -/
def Node.Told (node : Node) : Prop :=
  node.Sayable ∨ ∃ line, node = .literal .nothing line

namespace Statement

open Traced
open Token (Legible)

/-- A line of legible words makes a statement that can be said; one without words would make nothing. -/
theorem sayable_yields : Yields Token.Legible fun node => ∀ statement ∈ node.statements, statement.Told where
  infixed := Legible.infixed
  nothing line := List.forall_mem_singleton.mpr (.inr ⟨line, rfl⟩)
  breaks line := List.forall_mem_singleton.mpr (.inl trivial)
  tested words anchor context legible := by
    intro condition ok block other line taken rest
    have spoken := Expression.expect_spoken legible anchor context condition ok
    have inside := List.forall_mem_append.mpr
      ⟨(Node.forall_mem_statementsAll block).mpr taken, (Node.forall_mem_statementsAll other).mpr rest⟩
    exact ⟨List.forall_mem_cons.mpr ⟨.inl spoken, inside⟩, List.forall_mem_cons.mpr ⟨.inl spoken, inside⟩⟩
  headed keyword words name param legible heading body line taken := by
    obtain ⟨before, found, between, means, rfl, -, -, named, given⟩ := readHeading_ok heading
    refine List.forall_mem_cons.mpr ⟨.inl ⟨⟨before, ?_, named⟩, ⟨param, rfl, between, ?_, given⟩, rfl⟩, ?_⟩
    · exact legible.infixed (List.prefix_append _ _).isInfix
    · exact legible.infixed ⟨before ++ [found], [means], by simp⟩
    · exact (Node.forall_mem_statementsAll body).mpr taken
  returned keyword words stop legible := by
    unfold readReturns
    dsimp only
    split
    · exact ensures_pure (List.forall_mem_singleton.mpr (.inl (.inr ⟨_, rfl⟩)))
    · exact ensures_bind (Expression.read_spoken legible stop) fun value spoken =>
        ensures_pure (List.forall_mem_singleton.mpr (.inl (.inl spoken)))
  plain first words stop legible := by
    unfold readPlain
    split
    · rename_i split cut
      have joined := Split.at?_join cut
      have target : (ofExcept (Expression.readName split.before split.found.span)).Ensures
          fun node => ∃ name line, node = .identifier name line ∧ Text.IsName name := by
        refine ensures_ofExcept fun node ok => ?_
        obtain ⟨the, rest, name, same, -, names, rfl⟩ := Expression.readName_ok ok
        refine ⟨name, _, rfl, rest, legible.infixed ⟨[the], split.found :: split.after, ?_⟩, names⟩
        rw [← joined, same]
        simp
      have after : Legible split.after := legible.infixed ⟨split.before ++ [split.found], [], by simp [← joined]⟩
      refine ensures_bind target fun node named => ?_
      refine ensures_bind (Expression.expect_spoken after stop _) fun value spoken => ensures_pure ?_
      exact List.forall_mem_singleton.mpr (.inl ⟨named, spoken⟩)
    · intro node ok
      obtain ⟨flat, sayable⟩ := (Expression.read_spoken legible stop node ok).sayable
      rw [flat]
      exact List.forall_mem_singleton.mpr (.inl sayable)

end Statement
end Parlance
