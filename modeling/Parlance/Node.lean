import Parlance.Number

/-! The tree of a program. Every node knows the line it was read from. -/
namespace Parlance

inductive Literal where
  | nothing
  | boolean (value : Bool)
  | number (value : Number)
  | text (value : String)
deriving DecidableEq, Repr

def Literal.describe : Literal → String
  | .nothing => "nothing"
  | .boolean true => "true"
  | .boolean false => "false"
  | .number n => n.describe
  | .text t => t

inductive Node where
  | call (callee : Node) (arguments : List Node) (line : Nat)
  | identifier (name : String) (line : Nat)
  | literal (value : Literal) (line : Nat)
  | assignment (target value : Node) (line : Nat)
  | conditional (condition : Node) (thenBlock elseBlock : List Node) (line : Nat)
  | loop (condition : Node) (body otherwise : List Node) (line : Nat)
  | breaks (line : Nat)
  /-- The site tells one definition from another; reading leaves it 0, and loading a program into a session
  gives every definition a site of its own. -/
  | definition (name : String) (params : List String) (body : List Node) (site line : Nat)
  | returns (value : Node) (line : Nat)
deriving Repr

/-- A node as an error's trail names it. -/
structure Place where
  label : String
  line : Nat
deriving DecidableEq, Repr

namespace Node

def line : Node → Nat
  | .call _ _ line | .identifier _ line | .literal _ line | .assignment _ _ line
  | .conditional _ _ _ line | .loop _ _ _ line | .breaks line | .definition _ _ _ _ line
  | .returns _ line => line

def label : Node → String
  | .call .. => "procedure"
  | .identifier .. => "name"
  | .literal value _ => value.describe
  | .assignment .. => "assignment"
  | .conditional .. => "if statement"
  | .loop .. => "while loop"
  | .breaks .. => "break"
  | .definition .. => "procedure definition"
  | .returns .. => "return"

def place (node : Node) : Place :=
  ⟨node.label, node.line⟩

mutual

/-- The node with its definitions' sites numbered from `site` on, and the first number left. -/
def number (site : Nat) : Node → Node × Nat
  | .call callee arguments line =>
    let (callee, site) := callee.number site
    let (arguments, site) := numberAll site arguments
    (.call callee arguments line, site)
  | .assignment target value line =>
    let (target, site) := target.number site
    let (value, site) := value.number site
    (.assignment target value line, site)
  | .conditional condition thenBlock elseBlock line =>
    let (condition, site) := condition.number site
    let (thenBlock, site) := numberAll site thenBlock
    let (elseBlock, site) := numberAll site elseBlock
    (.conditional condition thenBlock elseBlock line, site)
  | .loop condition body otherwise line =>
    let (condition, site) := condition.number site
    let (body, site) := numberAll site body
    let (otherwise, site) := numberAll site otherwise
    (.loop condition body otherwise line, site)
  | .definition name params body _ line =>
    let (body, next) := numberAll (site + 1) body
    (.definition name params body site line, next)
  | .returns value line =>
    let (value, site) := value.number site
    (.returns value line, site)
  | .identifier name line => (.identifier name line, site)
  | .literal value line => (.literal value line, site)
  | .breaks line => (.breaks line, site)

def numberAll (site : Nat) : List Node → List Node × Nat
  | [] => ([], site)
  | node :: rest =>
    let (node, site) := node.number site
    let (rest, site) := numberAll site rest
    (node :: rest, site)

end

end Node
end Parlance
