import Parlance.Node

/-! Where signals may go. A `break` strays from a node if no loop of the node has it in its body, and a `returns` if no
procedure of the node has it in its body; a procedure lets neither out. -/
namespace Parlance

inductive Signal where
  | breaking
  | returning
deriving DecidableEq, Repr

namespace Node

mutual

/-- Whether the node has such a signal that nothing inside it stops. The condition and the otherwise block of a loop
belong to what is around the loop. -/
def strays (signal : Signal) : Node → Bool
  | .call callee arguments _ => callee.strays signal || anyStrays signal arguments
  | .identifier .. | .literal .. | .definition .. => false
  | .assignment target value _ => target.strays signal || value.strays signal
  | .conditional condition thenBlock elseBlock _ =>
    condition.strays signal || anyStrays signal thenBlock || anyStrays signal elseBlock
  | .loop condition body otherwise _ =>
    condition.strays signal || signal != .breaking && anyStrays signal body || anyStrays signal otherwise
  | .breaks _ => signal == .breaking
  | .returns value _ => signal == .returning || value.strays signal

def anyStrays (signal : Signal) : List Node → Bool
  | [] => false
  | node :: rest => node.strays signal || anyStrays signal rest

end

mutual

/-- Whether no `break` strays from a procedure that is defined in the node, however deep. -/
def isConfined : Node → Bool
  | .call callee arguments _ => callee.isConfined && allConfined arguments
  | .identifier .. | .literal .. | .breaks _ => true
  | .assignment target value _ => target.isConfined && value.isConfined
  | .conditional condition thenBlock elseBlock _ =>
    condition.isConfined && allConfined thenBlock && allConfined elseBlock
  | .loop condition body otherwise _ => condition.isConfined && allConfined body && allConfined otherwise
  | .definition _ _ body _ _ => !anyStrays .breaking body && allConfined body
  | .returns value _ => value.isConfined

def allConfined : List Node → Bool
  | [] => true
  | node :: rest => node.isConfined && allConfined rest

end

theorem anyStrays_iff (signal : Signal) (nodes : List Node) :
    anyStrays signal nodes = true ↔ ∃ node ∈ nodes, node.strays signal = true := by
  induction nodes with
  | nil => simp [anyStrays]
  | cons node rest ih => simp [anyStrays, ih]

theorem allConfined_iff (nodes : List Node) : allConfined nodes = true ↔ ∀ node ∈ nodes, node.isConfined = true := by
  induction nodes with
  | nil => simp [allConfined]
  | cons node rest ih => simp [allConfined, ih]

/-! Numbering the definitions moves no signal. -/

mutual

theorem strays_number (signal : Signal) (site : Nat) : (node : Node) →
    (node.number site).1.strays signal = node.strays signal
  | .call callee arguments _ => by
    simp only [number, strays, strays_number signal _ callee, anyStrays_numberAll signal _ arguments]
  | .identifier .. | .literal .. | .breaks _ | .definition .. => rfl
  | .assignment target value _ => by
    simp only [number, strays, strays_number signal _ target, strays_number signal _ value]
  | .conditional condition thenBlock elseBlock _ => by
    simp only [number, strays, strays_number signal _ condition, anyStrays_numberAll signal _ thenBlock,
      anyStrays_numberAll signal _ elseBlock]
  | .loop condition body otherwise _ => by
    simp only [number, strays, strays_number signal _ condition, anyStrays_numberAll signal _ body,
      anyStrays_numberAll signal _ otherwise]
  | .returns value _ => by simp only [number, strays, strays_number signal _ value]

theorem anyStrays_numberAll (signal : Signal) (site : Nat) : (nodes : List Node) →
    anyStrays signal (numberAll site nodes).1 = anyStrays signal nodes
  | [] => rfl
  | node :: rest => by
    simp only [numberAll, anyStrays, strays_number signal _ node, anyStrays_numberAll signal _ rest]

end

mutual

theorem isConfined_number (site : Nat) : (node : Node) → (node.number site).1.isConfined = node.isConfined
  | .call callee arguments _ => by
    simp only [number, isConfined, isConfined_number _ callee, allConfined_numberAll _ arguments]
  | .identifier .. | .literal .. | .breaks _ => rfl
  | .assignment target value _ => by
    simp only [number, isConfined, isConfined_number _ target, isConfined_number _ value]
  | .conditional condition thenBlock elseBlock _ => by
    simp only [number, isConfined, isConfined_number _ condition, allConfined_numberAll _ thenBlock,
      allConfined_numberAll _ elseBlock]
  | .loop condition body otherwise _ => by
    simp only [number, isConfined, isConfined_number _ condition, allConfined_numberAll _ body,
      allConfined_numberAll _ otherwise]
  | .definition _ _ body _ _ => by
    simp only [number, isConfined, anyStrays_numberAll .breaking _ body, allConfined_numberAll _ body]
  | .returns value _ => by simp only [number, isConfined, isConfined_number _ value]

theorem allConfined_numberAll (site : Nat) : (nodes : List Node) →
    allConfined (numberAll site nodes).1 = allConfined nodes
  | [] => rfl
  | node :: rest => by
    simp only [numberAll, allConfined, isConfined_number _ node, allConfined_numberAll _ rest]

end

/-- Every `break` stands in the body of a loop of the same procedure, or of the top level, and every `returns` in the body
of a procedure. -/
def WellPlaced (program : List Node) : Prop :=
  (∀ signal, anyStrays signal program = false) ∧ allConfined program = true

instance (program : List Node) : Decidable (WellPlaced program) :=
  decidable_of_iff ((anyStrays .breaking program = false ∧ anyStrays .returning program = false) ∧
    allConfined program = true) <| by
      refine and_congr_left fun _ => ⟨fun ⟨first, second⟩ signal => ?_, fun all => ⟨all _, all _⟩⟩
      cases signal
      · exact first
      · exact second

theorem WellPlaced.numberAll {program : List Node} (placed : WellPlaced program) (site : Nat) :
    WellPlaced (numberAll site program).1 := by
  refine ⟨fun signal => ?_, ?_⟩
  · rw [anyStrays_numberAll]
    exact placed.1 signal
  · rw [allConfined_numberAll]
    exact placed.2

end Node
end Parlance
