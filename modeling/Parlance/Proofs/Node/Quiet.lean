import Parlance.Proofs.Node.Grammar

/-! Quiet nodes bind nothing where they are evaluated. All expressions that can be written are quiet. -/
namespace Parlance

namespace Node

mutual

/-- Whether the node has no assignment and no definition, the bodies of procedures apart. A definition itself is not
quiet, so a quiet node has no such bodies either. -/
def isQuiet : Node → Bool
  | .call callee arguments _ => callee.isQuiet && allQuiet arguments
  | .identifier .. | .literal .. | .breaks _ => true
  | .assignment .. | .definition .. => false
  | .conditional condition thenBlock elseBlock _ => condition.isQuiet && allQuiet thenBlock && allQuiet elseBlock
  | .loop condition body otherwise _ => condition.isQuiet && allQuiet body && allQuiet otherwise
  | .returns value _ => value.isQuiet

def allQuiet : List Node → Bool
  | [] => true
  | node :: rest => node.isQuiet && allQuiet rest

end

theorem allQuiet_iff (nodes : List Node) : allQuiet nodes = true ↔ ∀ node ∈ nodes, node.isQuiet = true := by
  induction nodes with
  | nil => simp [allQuiet]
  | cons node rest ih => simp [allQuiet, ih]

mutual

/-- There is no definition whose site could be numbered. -/
theorem number_of_quiet (site : Nat) : (node : Node) → node.isQuiet = true → node.number site = (node, site)
  | .call callee arguments _, quiet => by
    obtain ⟨head, rest⟩ := Bool.and_eq_true_iff.mp quiet
    simp only [number, number_of_quiet site callee head, numberAll_of_quiet site arguments rest]
  | .conditional condition thenBlock elseBlock _, quiet | .loop condition thenBlock elseBlock _, quiet => by
    obtain ⟨before, last⟩ := Bool.and_eq_true_iff.mp quiet
    obtain ⟨head, first⟩ := Bool.and_eq_true_iff.mp before
    simp only [number, number_of_quiet site condition head, numberAll_of_quiet site thenBlock first,
      numberAll_of_quiet site elseBlock last]
  | .returns value _, quiet => by
    simp only [number, number_of_quiet site value quiet]
  | .identifier .., _ | .literal .., _ | .breaks _, _ => rfl

theorem numberAll_of_quiet (site : Nat) : (nodes : List Node) → allQuiet nodes = true →
    numberAll site nodes = (nodes, site)
  | [], _ => rfl
  | node :: rest, quiet => by
    obtain ⟨here, later⟩ := Bool.and_eq_true_iff.mp quiet
    simp only [numberAll, number_of_quiet site node here, numberAll_of_quiet site rest later]

end

mutual

theorem isQuiet_unlined : (node : Node) → node.unlined.isQuiet = node.isQuiet
  | .call callee arguments _ => by
    simp only [unlined, isQuiet, isQuiet_unlined callee, allQuiet_unlinedAll arguments]
  | .conditional condition thenBlock elseBlock _ | .loop condition thenBlock elseBlock _ => by
    simp only [unlined, isQuiet, isQuiet_unlined condition, allQuiet_unlinedAll thenBlock,
      allQuiet_unlinedAll elseBlock]
  | .returns value _ => by simp only [unlined, isQuiet, isQuiet_unlined value]
  | .identifier .. | .literal .. | .breaks _ | .assignment .. | .definition .. => rfl

theorem allQuiet_unlinedAll : (nodes : List Node) → allQuiet (unlinedAll nodes) = allQuiet nodes
  | [] => rfl
  | node :: rest => by simp only [unlinedAll, allQuiet, isQuiet_unlined node, allQuiet_unlinedAll rest]

end

end Node

namespace Expression

variable {token : Token} {words : List Token} {node : Node}

theorem Atom.isQuiet (atom : Atom token node) : node.isQuiet = true := by
  cases atom <;> rfl

theorem Head.isQuiet (head : Head token node) : node.isQuiet = true := by
  cases head with
  | word => rfl
  | atom atom => exact atom.isQuiet

/-- Expressions are made of calls, names and literals only. -/
theorem Means.isQuiet (means : Means words node) : node.isQuiet = true := by
  induction means with
  | atom atom => exact atom.isQuiet
  | name => rfl
  | beside head given noOf free ih => simp [Node.isQuiet, Node.allQuiet, head.isQuiet, ih]
  | operation noOf cut before after left right => simp [Node.isQuiet, Node.allQuiet, left, right]
  | @called before after found callee arguments isOf noOf named short long count given ihLong ihGiven =>
    have head : callee.isQuiet = true := by
      rcases before with _ | ⟨token, _ | ⟨second, rest⟩⟩
      · exact absurd rfl named
      · exact (short token rfl).isQuiet
      · exact ihLong (by simp)
    rw [Node.isQuiet, head, (Node.allQuiet_iff arguments).mpr ihGiven]
    rfl

theorem read_quiet (words : List Token) (anchor : Span) : (read words anchor).Ensures (·.isQuiet = true) := by
  intro node ok
  rw [← Node.isQuiet_unlined]
  exact (read_sound words anchor node ok).isQuiet

end Expression
end Parlance
