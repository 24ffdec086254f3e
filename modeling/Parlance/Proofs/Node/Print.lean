import Parlance.Indent
import Parlance.Node
import Parlance.Operator
import Parlance.Text.Word

/-! How a program is written out: one line for each statement and each `otherwise`, one unit of indentation for each
block around it, and one space between words. -/
namespace Parlance

def Text.wordsOf (text : String) : List String :=
  (Text.words text.toList).map Word.text

/-- The operator whose procedure has the name. -/
def Operator.ofProcedureName? (name : String) : Option Operator :=
  Operator.all.find? (·.procedureName == name)

theorem Operator.ofProcedureName?_procedureName (operator : Operator) :
    Operator.ofProcedureName? operator.procedureName = some operator := by
  cases operator <;> rfl

/-- The tabs and spaces that make up the indentation. -/
def Indent.write (indent : Indent) : List Char :=
  List.replicate indent.tabs '\t' ++ List.replicate indent.spaces ' '

namespace Node

def operator? : Node → Option Operator
  | .identifier name _ => Operator.ofProcedureName? name
  | _ => none

/-- The word of a name that has just one. -/
def bareWord? : Node → Option String
  | .identifier name _ =>
    match Text.wordsOf name with
    | [word] => some word
    | _ => none
  | _ => none

def isConditional : Node → Bool
  | .conditional .. => true
  | _ => false

mutual

/-- The words of an expression. It is `tight` inside an operand and inside a head: there a call has no `of`. -/
def spell (tight : Bool) : Node → List String
  | .identifier name _ => "the" :: Text.wordsOf name
  | .literal (.text text) _ => "text" :: Text.wordsOf text
  | .literal value _ => [value.describe]
  | .call callee arguments _ =>
    match callee.operator? with
    | some operator => [operator.spelling].intercalate (spellAll true arguments)
    | none =>
      let head := match callee.bareWord? with
        | some word => [word]
        | none => callee.spell true
      head ++ (if tight then [] else ["of"]) ++ (spellAll tight arguments).flatten
  | .assignment .. | .conditional .. | .loop .. | .breaks .. | .definition .. | .returns .. => []

def spellAll (tight : Bool) : List Node → List (List String)
  | [] => []
  | node :: rest => node.spell tight :: spellAll tight rest

end

/-- The words of a statement's own line; `lead` is the word before the condition if it is a conditional. -/
def heading (lead : String) : Node → List String
  | .conditional condition _ _ _ => lead :: condition.spell false
  | .loop condition _ _ _ => "while" :: condition.spell false
  | .definition name params _ _ _ =>
    "by" :: Text.wordsOf name ++ "of" :: params.flatMap Text.wordsOf ++ ["we", "mean"]
  | .assignment target value _ => target.spell false ++ "is" :: value.spell false
  | .returns (.literal .nothing _) _ => ["returns"]
  | .returns value _ => "returns" :: value.spell false
  | .breaks _ => ["break"]
  | .call callee arguments line => (Node.call callee arguments line).spell false
  | .identifier name line => (Node.identifier name line).spell false
  | .literal value line => (Node.literal value line).spell false

/-- A line of a program that is written out. -/
structure Line where
  level : Nat
  words : List String
deriving DecidableEq, Repr

mutual

/-- The lines of a statement's blocks. -/
def blockLines (level : Nat) : Node → List Line
  | .conditional _ thenBlock elseBlock _ => linesAll (level + 1) thenBlock ++ linesElse level elseBlock
  | .loop _ body otherwise _ =>
    linesAll (level + 1) body ++
      if otherwise.isEmpty then [] else ⟨level, ["otherwise"]⟩ :: linesAll (level + 1) otherwise
  | .definition _ _ body _ _ => linesAll (level + 1) body
  | .call .. | .identifier .. | .literal .. | .assignment .. | .breaks .. | .returns .. => []

def linesAll (level : Nat) : List Node → List Line
  | [] => []
  | node :: rest => ⟨level, node.heading "if"⟩ :: node.blockLines level ++ linesAll level rest

/-- The lines of what is done if a condition does not hold. A conditional alone is attached with `otif`. -/
def linesElse (level : Nat) : List Node → List Line
  | [] => []
  | node :: rest =>
    if rest.isEmpty && node.isConditional then ⟨level, node.heading "otif"⟩ :: node.blockLines level
    else ⟨level, ["otherwise"]⟩ ::
      (⟨level + 1, node.heading "if"⟩ :: node.blockLines (level + 1) ++ linesAll (level + 1) rest)

end

def Line.text (unit : Indent) (line : Line) : String :=
  String.ofList (List.replicate line.level unit.write).flatten ++ " ".intercalate line.words

mutual

/-- The node without its line numbers: they are all 0. -/
def unlined : Node → Node
  | .call callee arguments _ => .call callee.unlined (unlinedAll arguments) 0
  | .identifier name _ => .identifier name 0
  | .literal value _ => .literal value 0
  | .assignment target value _ => .assignment target.unlined value.unlined 0
  | .conditional condition thenBlock elseBlock _ =>
    .conditional condition.unlined (unlinedAll thenBlock) (unlinedAll elseBlock) 0
  | .loop condition body otherwise _ => .loop condition.unlined (unlinedAll body) (unlinedAll otherwise) 0
  | .breaks _ => .breaks 0
  | .definition name params body site _ => .definition name params (unlinedAll body) site 0
  | .returns value _ => .returns value.unlined 0

def unlinedAll : List Node → List Node
  | [] => []
  | node :: rest => node.unlined :: unlinedAll rest

end

end Node

/-- The text of a program, with the given unit of indentation. -/
def Program.print (unit : Indent) (program : List Node) : String :=
  String.join ((Node.linesAll 0 program).map fun line => line.text unit ++ "\n")

end Parlance
