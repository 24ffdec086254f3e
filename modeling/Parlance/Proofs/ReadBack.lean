import Mathlib
import Parlance.Proofs.LineByLine
import Parlance.Proofs.Node.Layout

/-! Writing a program out and reading it again. What is read of a source whose blanks are all ASCII can be written with
words that mean the same, and the text of those is read as the program it was written from. -/
namespace Parlance

theorem Node.Proper.printable {node : Node} {all : List Group} (proper : node.Proper all)
    (told : node.Told) : node.Printable := by
  rcases told with sayable | ⟨line, rfl⟩
  · exact ⟨sayable, proper.blocks⟩
  · exact absurd rfl proper.2

namespace Source

variable {source : Source} {program : List Node}

theorem program_printable (blanks : source.AsciiBlanks) (read : source.program.result = .ok program) :
    ∀ statement ∈ Node.statementsAll program, statement.Printable := by
  obtain ⟨tokens, lexed, parsed⟩ := program_parsed read
  obtain ⟨-, proper⟩ := (tokens_read lexed).ok program parsed
  have told := Program.read_yields Statement.sayable_yields (tokens_legible blanks lexed) program parsed
  have all := (Node.forall_mem_statementsAll program).mpr told
  exact fun statement member => (proper statement member).printable (all statement member)

/-- A program that was read of a source without other blanks than ASCII ones can be written out, with any unit of
indentation that is not empty and not mixed. The text can be read, and gives the program back but for the numbers of its
lines. -/
theorem program_read_back (blanks : source.AsciiBlanks) (read : source.program.result = .ok program) {unit : Indent}
    (indents : unit.isZero = false) (unmixed : unit.isMixed = false) (name : String) :
    ∃ again, (Source.ofText name (Program.print unit program)).program.result = .ok again ∧
      Node.unlinedAll again = Node.unlinedAll program := by
  have printable := program_printable blanks read
  have laid := Node.laid_all program printable 0
  obtain ⟨stop, own, lexed, holds⟩ := tokens_typeset indents unmixed laid name
  obtain ⟨again, parsed, same, -⟩ := Program.read_printed stop printable holds
  refine ⟨again, ?_, same⟩
  rw [Program.print, Source.program]
  simp only [lexed, parsed]
  rfl

set_option maxRecDepth 20000 in
/-- An operand that is a call, a call without an argument, and a conditional alone in an `otherwise`. -/
theorem program_read_back_attached :
    ∃ (source : Source) (program : List Node), source.AsciiBlanks ∧ source.program.result = .ok program ∧
      Program.print ⟨0, 2⟩ program = "if the x minus f 1\n  break\notif true\n  the y is f of\n  returns\n" ∧
      ∃ again, (Source.ofText "again" (Program.print ⟨0, 2⟩ program)).program.result = .ok again ∧
        Node.unlinedAll again = Node.unlinedAll program := by
  have read : (Source.mk "s" [some "if the  x minus f 1", some "\tbreak", some "", some "otherwise", some "\tif true",
      some "\t\tthe y is f of", some "\t\treturns"]).program.result =
      .ok [.conditional
        (.call (.identifier "infix  minus" 1)
          [.identifier "x" 1, .call (.identifier "f" 1) [.literal (.number 1) 1] 1] 1)
        [.breaks 2]
        [.conditional (.literal (.boolean true) 5)
          [.assignment (.identifier "y" 6) (.call (.identifier "f" 6) [] 6) 6, .returns (.literal .nothing 7) 7] [] 5]
        1] := by
    cbv
  have blanks : (Source.mk "s" [some "if the  x minus f 1", some "\tbreak", some "", some "otherwise", some "\tif true",
      some "\t\tthe y is f of", some "\t\treturns"]).AsciiBlanks := by
    simp [AsciiBlanks, Text.isAscii]
  exact ⟨_, _, blanks, read, by cbv, program_read_back blanks read rfl rfl "again"⟩

end Source
end Parlance
