import Mathlib.Data.List.Forall2
import Parlance.Node
import Parlance.Proofs.Token.Stream

/-! The outline of a program: its statements in the order of their lines, each with the depth of the block that it
stands in, and between them the places where an `otherwise` opens a block. What a line must be like to hold such an item
is said of the line's level and first word. -/
namespace Parlance

namespace Node

mutual

/-- The node and every node inside it. -/
def nodes : Node → List Node
  | .call callee arguments line => .call callee arguments line :: (callee.nodes ++ nodesAll arguments)
  | .identifier name line => [.identifier name line]
  | .literal value line => [.literal value line]
  | .assignment target value line => .assignment target value line :: (target.nodes ++ value.nodes)
  | .conditional condition thenBlock elseBlock line =>
    .conditional condition thenBlock elseBlock line :: (condition.nodes ++ nodesAll thenBlock ++ nodesAll elseBlock)
  | .loop condition body otherwise line =>
    .loop condition body otherwise line :: (condition.nodes ++ nodesAll body ++ nodesAll otherwise)
  | .breaks line => [.breaks line]
  | .definition name params body site line => .definition name params body site line :: nodesAll body
  | .returns value line => .returns value line :: value.nodes

def nodesAll : List Node → List Node
  | [] => []
  | node :: rest => node.nodes ++ nodesAll rest

end

mutual

/-- A statement and the statements of its blocks, each before those inside it. -/
def statements : Node → List Node
  | .conditional condition thenBlock elseBlock line =>
    .conditional condition thenBlock elseBlock line :: (statementsAll thenBlock ++ statementsAll elseBlock)
  | .loop condition body otherwise line =>
    .loop condition body otherwise line :: (statementsAll body ++ statementsAll otherwise)
  | .definition name params body site line => .definition name params body site line :: statementsAll body
  | node => [node]

def statementsAll : List Node → List Node
  | [] => []
  | node :: rest => node.statements ++ statementsAll rest

end

/-- The expressions of a statement itself, without those of its blocks. -/
def expressions : Node → List Node
  | .conditional condition _ _ _ | .loop condition _ _ _ => [condition]
  | .assignment target value _ => [target, value]
  | .returns value _ => [value]
  | .breaks _ | .definition .. => []
  | .call callee arguments line => [.call callee arguments line]
  | .identifier name line => [.identifier name line]
  | .literal value line => [.literal value line]

/-- The blocks that a statement cannot be without. -/
def blocks : Node → List (List Node)
  | .conditional _ block _ _ | .loop _ block _ _ | .definition _ _ block _ _ => [block]
  | _ => []

end Node

/-- What a line of a program holds: a statement, one that `otif` attaches to the conditional before it, or an
`otherwise` that opens a block. -/
inductive Item where
  | statement (node : Node) (depth : Nat)
  | continuation (node : Node) (depth : Nat)
  | otherwise (block : List Node) (depth : Nat)

namespace Item

def node? : Item → Option Node
  | .statement node _ | .continuation node _ => some node
  | .otherwise .. => none

/-- The line of the group holds the item, at the item's depth and under the right keyword. -/
def Fits (item : Item) (group : Group) : Prop :=
  match item with
  | .statement node depth =>
    node.line = group.span.line ∧ depth = group.level ∧ group.leads .otherwiseWord = false ∧
      group.leads .otifWord = false
  | .continuation node depth => node.line = group.span.line ∧ depth = group.level ∧ group.leads .otifWord = true
  | .otherwise block depth => block ≠ [] ∧ depth = group.level ∧ group.leads .otherwiseWord = true

end Item

namespace Node

/-- Whether a block is one conditional that `otif` attaches. -/
def continued (continues : Nat → Bool) : List Node → Bool
  | [node] => continues node.line
  | _ => false

mutual

/-- The items of a statement's blocks; `continues` tells the lines that begin with `otif`. -/
def inside (continues : Nat → Bool) (depth : Nat) : Node → List Item
  | .conditional _ thenBlock elseBlock _ =>
    items continues .statement (depth + 1) thenBlock ++
      if elseBlock.isEmpty then []
      else if continued continues elseBlock then items continues .continuation depth elseBlock
      else .otherwise elseBlock depth :: items continues .statement (depth + 1) elseBlock
  | .loop _ body otherwise _ =>
    items continues .statement (depth + 1) body ++
      if otherwise.isEmpty then []
      else .otherwise otherwise depth :: items continues .statement (depth + 1) otherwise
  | .definition _ _ body _ _ => items continues .statement (depth + 1) body
  | _ => []

/-- The items of statements at one depth, which `lead` makes, and of their blocks. -/
def items (continues : Nat → Bool) (lead : Node → Nat → Item) (depth : Nat) : List Node → List Item
  | [] => []
  | node :: rest => lead node depth :: (node.inside continues depth ++ items continues lead depth rest)

end

theorem inside_attached {continues : Nat → Bool} {depth : Nat} {condition : Node} {block elseBlock : List Node}
    {line : Nat} (through : continued continues elseBlock = true) :
    (Node.conditional condition block elseBlock line).inside continues depth =
      items continues .statement (depth + 1) block ++ items continues .continuation depth elseBlock := by
  have filled : elseBlock ≠ [] := by
    rintro rfl
    cases through
  simp [inside, filled, through]

theorem inside_otherwise {continues : Nat → Bool} {depth : Nat} {condition : Node} {block elseBlock : List Node}
    {line : Nat} (filled : elseBlock ≠ []) (alone : continued continues elseBlock = false) :
    (Node.conditional condition block elseBlock line).inside continues depth =
      items continues .statement (depth + 1) block ++
        .otherwise elseBlock depth :: items continues .statement (depth + 1) elseBlock := by
  simp [inside, filled, alone]

mutual

theorem inside_statements (continues : Nat → Bool) (depth : Nat) : (node : Node) →
    node :: (node.inside continues depth).filterMap Item.node? = node.statements
  | .conditional condition thenBlock elseBlock line => by
    have taken := items_statements continues Item.statement (fun _ _ => rfl) (depth + 1) thenBlock
    have other := items_statements continues Item.statement (fun _ _ => rfl) (depth + 1) elseBlock
    have attached := items_statements continues Item.continuation (fun _ _ => rfl) depth elseBlock
    simp only [inside, List.filterMap_append, taken, statements]
    split_ifs with empty through
    · rw [List.isEmpty_iff.mp empty]
      rfl
    · rw [attached]
    · rw [List.filterMap_cons_none rfl, other]
  | .loop condition body otherwise line => by
    have inner := items_statements continues Item.statement (fun _ _ => rfl) (depth + 1) body
    have other := items_statements continues Item.statement (fun _ _ => rfl) (depth + 1) otherwise
    simp only [inside, List.filterMap_append, inner, statements]
    split_ifs with empty
    · rw [List.isEmpty_iff.mp empty]
      rfl
    · rw [List.filterMap_cons_none rfl, other]
  | .definition _ _ body _ _ => by
    rw [inside, items_statements continues Item.statement (fun _ _ => rfl) (depth + 1) body, statements]
  | .call .. | .identifier .. | .literal .. | .assignment .. | .breaks _ | .returns .. => rfl

/-- The items that are statements are all the statements there are. -/
theorem items_statements (continues : Nat → Bool) (lead : Node → Nat → Item)
    (leads : ∀ node depth, (lead node depth).node? = some node) (depth : Nat) : (nodes : List Node) →
    (items continues lead depth nodes).filterMap Item.node? = statementsAll nodes
  | [] => rfl
  | node :: rest => by
    have here := inside_statements continues depth node
    have later := items_statements continues lead leads depth rest
    rw [items, List.filterMap_cons, leads, List.filterMap_append, later, statementsAll, ← here]
    rfl

end

end Node
end Parlance
