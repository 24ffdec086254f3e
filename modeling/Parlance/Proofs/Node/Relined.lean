import Mathlib.Data.Nat.Pairing
import Parlance.Node

/-! Programs with other line numbers. -/
namespace Parlance

namespace Node

mutual

/-- The node with other line numbers. -/
def relined (line : Nat → Nat) : Node → Node
  | .call callee arguments old => .call (callee.relined line) (relinedAll line arguments) (line old)
  | .identifier name old => .identifier name (line old)
  | .literal value old => .literal value (line old)
  | .assignment target value old => .assignment (target.relined line) (value.relined line) (line old)
  | .conditional condition thenBlock elseBlock old =>
    .conditional (condition.relined line) (relinedAll line thenBlock) (relinedAll line elseBlock) (line old)
  | .loop condition body otherwise old =>
    .loop (condition.relined line) (relinedAll line body) (relinedAll line otherwise) (line old)
  | .breaks old => .breaks (line old)
  | .definition name params body site old => .definition name params (relinedAll line body) site (line old)
  | .returns value old => .returns (value.relined line) (line old)

def relinedAll (line : Nat → Nat) : List Node → List Node
  | [] => []
  | node :: rest => node.relined line :: relinedAll line rest

end

theorem place_relined (line : Nat → Nat) (node : Node) :
    (node.relined line).place = ⟨node.place.label, line node.place.line⟩ := by
  cases node <;> rfl

mutual

theorem relined_same : (node : Node) → node.relined (fun line => line) = node
  | .call callee arguments _ => by rw [relined, relined_same callee, relinedAll_same arguments]
  | .identifier _ _ | .literal _ _ | .breaks _ => rfl
  | .assignment target value _ => by rw [relined, relined_same target, relined_same value]
  | .conditional condition thenBlock elseBlock _ => by
    rw [relined, relined_same condition, relinedAll_same thenBlock, relinedAll_same elseBlock]
  | .loop condition body otherwise _ => by
    rw [relined, relined_same condition, relinedAll_same body, relinedAll_same otherwise]
  | .definition _ _ body _ _ => by rw [relined, relinedAll_same body]
  | .returns value _ => by rw [relined, relined_same value]

theorem relinedAll_same : (nodes : List Node) → relinedAll (fun line => line) nodes = nodes
  | [] => rfl
  | node :: rest => by rw [relinedAll, relined_same node, relinedAll_same rest]

end

mutual

theorem relined_relined (first second : Nat → Nat) : (node : Node) →
    (node.relined first).relined second = node.relined fun line => second (first line)
  | .call callee arguments _ => by
    simp only [relined, relined_relined first second callee, relinedAll_relinedAll first second arguments]
  | .identifier _ _ | .literal _ _ | .breaks _ => rfl
  | .assignment target value _ => by
    simp only [relined, relined_relined first second target, relined_relined first second value]
  | .conditional condition thenBlock elseBlock _ => by
    simp only [relined, relined_relined first second condition, relinedAll_relinedAll first second thenBlock,
      relinedAll_relinedAll first second elseBlock]
  | .loop condition body otherwise _ => by
    simp only [relined, relined_relined first second condition, relinedAll_relinedAll first second body,
      relinedAll_relinedAll first second otherwise]
  | .definition _ _ body _ _ => by simp only [relined, relinedAll_relinedAll first second body]
  | .returns value _ => by simp only [relined, relined_relined first second value]

theorem relinedAll_relinedAll (first second : Nat → Nat) : (nodes : List Node) →
    relinedAll second (relinedAll first nodes) = relinedAll (fun line => second (first line)) nodes
  | [] => rfl
  | node :: rest => by
    simp only [relinedAll, relined_relined first second node, relinedAll_relinedAll first second rest]

end

mutual

/-- Sites are given without a look at the lines. -/
theorem number_relined (line : Nat → Nat) (site : Nat) : (node : Node) →
    (node.relined line).number site = ((node.number site).1.relined line, (node.number site).2)
  | .call callee arguments _ => by
    simp only [relined, number, number_relined line _ callee, numberAll_relined line _ arguments]
  | .identifier _ _ | .literal _ _ | .breaks _ => rfl
  | .assignment target value _ => by
    simp only [relined, number, number_relined line _ target, number_relined line _ value]
  | .conditional condition thenBlock elseBlock _ => by
    simp only [relined, number, number_relined line _ condition, numberAll_relined line _ thenBlock,
      numberAll_relined line _ elseBlock]
  | .loop condition body otherwise _ => by
    simp only [relined, number, number_relined line _ condition, numberAll_relined line _ body,
      numberAll_relined line _ otherwise]
  | .definition _ _ body _ _ => by simp only [relined, number, numberAll_relined line _ body]
  | .returns value _ => by simp only [relined, number, number_relined line _ value]

theorem numberAll_relined (line : Nat → Nat) (site : Nat) : (nodes : List Node) →
    numberAll site (relinedAll line nodes) = (relinedAll line (numberAll site nodes).1, (numberAll site nodes).2)
  | [] => rfl
  | node :: rest => by
    simp only [relinedAll, numberAll, number_relined line _ node, numberAll_relined line _ rest]

end

/-! ### Two numberings at once -/

/-- The first and the second of two line numbers that are kept as one. -/
def former (line : Nat) : Nat :=
  (Nat.unpair line).1

def latter (line : Nat) : Nat :=
  (Nat.unpair line).2

mutual

/-- Nodes that differ in their line numbers only are one node with both. -/
theorem exists_paired : (one other : Node) → one.relined (fun _ => 0) = other.relined (fun _ => 0) →
    ∃ node : Node, node.relined former = one ∧ node.relined latter = other
  | .call callee arguments line, other, same => by
    cases other with
    | call callee' arguments' line' =>
      obtain ⟨callees, all, -⟩ := Node.call.inj same
      obtain ⟨head, rfl, rfl⟩ := exists_paired callee callee' callees
      obtain ⟨nodes, rfl, rfl⟩ := exists_pairedAll arguments arguments' all
      exact ⟨.call head nodes (Nat.pair line line'), by simp [relined, former, latter]⟩
    | identifier | literal | assignment | conditional | loop | breaks | definition | returns => cases same
  | .identifier name line, other, same => by
    cases other with
    | identifier name' line' =>
      cases (Node.identifier.inj same).1
      exact ⟨.identifier name (Nat.pair line line'), by simp [relined, former, latter]⟩
    | call | literal | assignment | conditional | loop | breaks | definition | returns => cases same
  | .literal value line, other, same => by
    cases other with
    | literal value' line' =>
      cases (Node.literal.inj same).1
      exact ⟨.literal value (Nat.pair line line'), by simp [relined, former, latter]⟩
    | call | identifier | assignment | conditional | loop | breaks | definition | returns => cases same
  | .assignment target value line, other, same => by
    cases other with
    | assignment target' value' line' =>
      obtain ⟨targets, values, -⟩ := Node.assignment.inj same
      obtain ⟨left, rfl, rfl⟩ := exists_paired target target' targets
      obtain ⟨right, rfl, rfl⟩ := exists_paired value value' values
      exact ⟨.assignment left right (Nat.pair line line'), by simp [relined, former, latter]⟩
    | call | identifier | literal | conditional | loop | breaks | definition | returns => cases same
  | .conditional condition thenBlock elseBlock line, other, same => by
    cases other with
    | conditional condition' thenBlock' elseBlock' line' =>
      obtain ⟨conditions, taken, passed, -⟩ := Node.conditional.inj same
      obtain ⟨test, rfl, rfl⟩ := exists_paired condition condition' conditions
      obtain ⟨first, rfl, rfl⟩ := exists_pairedAll thenBlock thenBlock' taken
      obtain ⟨second, rfl, rfl⟩ := exists_pairedAll elseBlock elseBlock' passed
      exact ⟨.conditional test first second (Nat.pair line line'), by simp [relined, former, latter]⟩
    | call | identifier | literal | assignment | loop | breaks | definition | returns => cases same
  | .loop condition body otherwise line, other, same => by
    cases other with
    | loop condition' body' otherwise' line' =>
      obtain ⟨conditions, bodies, passed, -⟩ := Node.loop.inj same
      obtain ⟨test, rfl, rfl⟩ := exists_paired condition condition' conditions
      obtain ⟨first, rfl, rfl⟩ := exists_pairedAll body body' bodies
      obtain ⟨second, rfl, rfl⟩ := exists_pairedAll otherwise otherwise' passed
      exact ⟨.loop test first second (Nat.pair line line'), by simp [relined, former, latter]⟩
    | call | identifier | literal | assignment | conditional | breaks | definition | returns => cases same
  | .breaks line, other, same => by
    cases other with
    | breaks line' => exact ⟨.breaks (Nat.pair line line'), by simp [relined, former, latter]⟩
    | call | identifier | literal | assignment | conditional | loop | definition | returns => cases same
  | .definition name params body site line, other, same => by
    cases other with
    | definition name' params' body' site' line' =>
      obtain ⟨rfl, rfl, bodies, rfl, -⟩ := Node.definition.inj same
      obtain ⟨nodes, rfl, rfl⟩ := exists_pairedAll body body' bodies
      exact ⟨.definition name params nodes site (Nat.pair line line'), by simp [relined, former, latter]⟩
    | call | identifier | literal | assignment | conditional | loop | breaks | returns => cases same
  | .returns value line, other, same => by
    cases other with
    | returns value' line' =>
      obtain ⟨node, rfl, rfl⟩ := exists_paired value value' (Node.returns.inj same).1
      exact ⟨.returns node (Nat.pair line line'), by simp [relined, former, latter]⟩
    | call | identifier | literal | assignment | conditional | loop | breaks | definition => cases same

theorem exists_pairedAll : (one other : List Node) → relinedAll (fun _ => 0) one = relinedAll (fun _ => 0) other →
    ∃ nodes, relinedAll former nodes = one ∧ relinedAll latter nodes = other
  | [], other, same => by
    cases other with
    | nil => exact ⟨[], rfl, rfl⟩
    | cons => cases same
  | node :: rest, other, same => by
    cases other with
    | nil => cases same
    | cons node' rest' =>
      obtain ⟨here, later⟩ := List.cons.inj same
      obtain ⟨node, rfl, rfl⟩ := exists_paired node node' here
      obtain ⟨nodes, rfl, rfl⟩ := exists_pairedAll rest rest' later
      exact ⟨node :: nodes, rfl, rfl⟩

end

end Node
end Parlance
