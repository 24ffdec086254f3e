import Parlance.Proofs.Node.Meets
import Parlance.Proofs.Node.Outline
import Parlance.Proofs.Node.Reader

/-! Expressions as they are written: all on one line, begun by a word that can begin one, and refused for their words
only. -/
namespace Parlance

/-- Whether the error is about the words of a line, and not about lines and levels. -/
def GrammarError.isVerbal : GrammarError → Bool
  | .unterminatedBlock _ | .unexpectedEndOfInput _ | .unexpectedIndentation _ => false
  | _ => true

/-- The token can begin an expression, as far as keywords go. -/
def Token.Speaks (token : Token) : Prop :=
  ∀ keyword, token.kind = .keyword keyword → keyword = .theWord ∨ keyword = .trueWord ∨ keyword = .falseWord

namespace Node

mutual

/-- The node is an expression that a line can hold, and every node of it knows that line. -/
def WrittenOn (line : Nat) : Node → Prop
  | .call callee arguments own => own = line ∧ callee.WrittenOn line ∧ AllWrittenOn line arguments
  | .identifier _ own => own = line
  | .literal value own => own = line ∧ value ≠ .nothing
  | _ => False

def AllWrittenOn (line : Nat) : List Node → Prop
  | [] => True
  | node :: rest => node.WrittenOn line ∧ AllWrittenOn line rest

end

mutual

theorem WrittenOn.nodes {line : Nat} : {node : Node} → node.WrittenOn line →
    ∀ inner ∈ node.nodes, inner.line = line ∧ ∀ own, inner ≠ .literal .nothing own
  | .call callee arguments own, ⟨here, head, rest⟩ => by
    simp only [Node.nodes, List.forall_mem_cons, List.forall_mem_append]
    exact ⟨⟨here, nofun⟩, head.nodes, AllWrittenOn.nodes rest⟩
  | .identifier _ _, here => by
    simp only [Node.nodes, List.forall_mem_singleton]
    exact ⟨here, nofun⟩
  | .literal _ _, ⟨here, something⟩ => by
    simp only [Node.nodes, List.forall_mem_singleton]
    refine ⟨here, ?_⟩
    rintro own ⟨⟩
    exact something rfl

theorem AllWrittenOn.nodes {line : Nat} : {nodes : List Node} → AllWrittenOn line nodes →
    ∀ inner ∈ nodesAll nodes, inner.line = line ∧ ∀ own, inner ≠ .literal .nothing own
  | [], _ => by simp [nodesAll]
  | node :: rest, ⟨here, later⟩ => by
    simp only [nodesAll, List.forall_mem_append]
    exact ⟨here.nodes, AllWrittenOn.nodes later⟩

end

end Node

theorem Split.at?_on {wanted : Token → Bool} {words : List Token} {split : Split} {line : Nat}
    (cut : at? wanted words = some split) (on : ∀ token ∈ words, token.span.line = line) :
    (∀ token ∈ split.before, token.span.line = line) ∧ ∀ token ∈ split.after, token.span.line = line := by
  rw [← at?_join cut, List.forall_mem_append, List.forall_mem_cons] at on
  exact ⟨on.1, on.2.2⟩

/-- What the words before the cut begin with, all of them do. -/
theorem Split.at?_head {wanted : Token → Bool} {words : List Token} {split : Split} {token : Token}
    (cut : at? wanted words = some split) (first : token ∈ split.before.head?) : token ∈ words.head? := by
  rw [← at?_join cut]
  cases same : split.before <;> simp_all

theorem Split.atOperator?_cut {words : List Token} {operator : Operator} {split : Split}
    (cut : atOperator? words = some (operator, split)) : atWord? operator.spelling words = some split := by
  obtain ⟨found, _, same⟩ := List.exists_of_findSome?_eq_some cut
  obtain ⟨inner, word, same⟩ := Option.map_eq_some_iff.mp same
  cases same
  exact word

namespace Expression

open Traced

variable {line : Nat}

theorem joinWords_verbal {words : List Token} {anchor : Span} {error : GrammarError}
    (failed : joinWords words anchor = .error error) : error.isVerbal = true := by
  unfold joinWords at failed
  split at failed
  · cases failed
    rfl
  · split at failed <;> cases failed
    rfl

/-- The words begin with one that can begin an expression. -/
def Begun (words : List Token) : Prop :=
  ∃ token ∈ words.head?, token.Speaks

theorem Begun.of_cut {wanted : Token → Bool} {words : List Token} {split : Split}
    (begun : Begun split.before) (cut : Split.at? wanted words = some split) : Begun words := by
  obtain ⟨token, first, speaks⟩ := begun
  exact ⟨token, Split.at?_head cut first, speaks⟩

theorem readName_meets {words : List Token} {anchor : Span} (on : ∀ token ∈ words, token.span.line = line) :
    (ofExcept (readName words anchor)).Meets (fun node => node.WrittenOn line ∧ Begun words) (·.isVerbal = true) := by
  unfold readName
  split
  · exact meets_fail rfl
  · rename_i first rest
    obtain ⟨here, _⟩ := List.forall_mem_cons.mp on
    split
    · rename_i the
      have kind : first.kind = .keyword .theWord := by simpa [Token.isKeyword] using the
      cases joined : joinWords rest anchor with
      | error error => exact meets_fail (joinWords_verbal joined)
      | ok name =>
        refine meets_pure ⟨here, first, rfl, ?_⟩
        intro keyword same
        cases kind.symm.trans same
        exact .inl rfl
    · exact meets_fail rfl

theorem readAtom_meets {token : Token} (here : token.span.line = line) :
    (ofExcept (readAtom token)).Meets (fun node => node.WrittenOn line ∧ token.Speaks) (·.isVerbal = true) := by
  have speaks {kind : Kind} (same : token.kind = kind)
      (fine : ∀ keyword, kind = .keyword keyword → keyword = .theWord ∨ keyword = .trueWord ∨ keyword = .falseWord) :
      token.Speaks := fun keyword given => fine keyword (same.symm.trans given)
  unfold readAtom
  split
  · rename_i number
    split
    · exact meets_pure ⟨⟨here, nofun⟩, speaks number nofun⟩
    · exact meets_fail rfl
  · rename_i kind
    exact meets_pure ⟨⟨here, nofun⟩, speaks kind (by simp)⟩
  · rename_i kind
    exact meets_pure ⟨⟨here, nofun⟩, speaks kind (by simp)⟩
  · rename_i kind
    exact meets_pure ⟨⟨here, nofun⟩, speaks kind nofun⟩
  · exact meets_fail rfl

theorem readHeadWord_meets {token : Token} (here : token.span.line = line) :
    (ofExcept (readHeadWord token)).Meets (fun node => node.WrittenOn line ∧ token.Speaks) (·.isVerbal = true) := by
  unfold readHeadWord
  split
  · rename_i word
    exact meets_pure ⟨here, fun keyword same => by cases word.symm.trans same⟩
  · exact readAtom_meets here

theorem readShortHead?_meets {words : List Token} {anchor : Span} {head : Except GrammarError Node}
    (on : ∀ token ∈ words, token.span.line = line) (short : readShortHead? words anchor = some head) :
    (ofExcept head).Meets (fun node => node.WrittenOn line ∧ Begun words) (·.isVerbal = true) := by
  unfold readShortHead? at short
  split at short
  · cases short
    exact meets_fail rfl
  · rename_i token
    cases short
    refine (readHeadWord_meets (on token List.mem_cons_self)).weaken ?_ fun _ verbal => verbal
    exact fun node read => ⟨read.1, token, rfl, read.2⟩
  · cases short

section

variable {words : List Token} {anchor : Span}

theorem readCallee_meets (on : ∀ token ∈ words, token.span.line = line)
    (inner : (read words anchor).Meets (fun node => node.WrittenOn line ∧ Begun words) (·.isVerbal = true)) :
    (readCallee words anchor).Meets (fun node => node.WrittenOn line ∧ Begun words) (·.isVerbal = true) := by
  unfold readCallee
  split
  · rename_i head short
    exact readShortHead?_meets on short
  · exact inner

theorem readGiven_meets
    (inner : (read words anchor).Meets (fun node => node.WrittenOn line ∧ Begun words) (·.isVerbal = true)) :
    (readGiven words anchor).Meets (Node.AllWrittenOn line) (·.isVerbal = true) := by
  unfold readGiven
  split
  · exact meets_pure trivial
  · exact meets_bind inner fun node written => meets_pure ⟨written.1, trivial⟩

theorem meets_expect {good : Node → Prop} (context : String)
    (inner : (read words anchor).Meets good (·.isVerbal = true)) :
    (expect words anchor context).Meets good (·.isVerbal = true) := by
  unfold expect
  split
  · exact meets_fail rfl
  · exact inner

end

theorem read_meets (words : List Token) (anchor : Span) (on : ∀ token ∈ words, token.span.line = line) :
    (read words anchor).Meets (fun node => node.WrittenOn line ∧ Begun words) (·.isVerbal = true) := by
  induction words, anchor using read_induction with
  | nothing anchor => exact meets_fail rfl
  | called first rest anchor split cut before after =>
    have here := on first List.mem_cons_self
    obtain ⟨onBefore, onAfter⟩ := Split.at?_on cut on
    refine meets_bind (meets_tell _) fun _ _ => ?_
    refine meets_bind (readCallee_meets onBefore (before onBefore)) fun callee head => ?_
    refine meets_bind (readGiven_meets (after onAfter)) fun arguments written => meets_pure ?_
    exact ⟨⟨here, head.1, written⟩, head.2.of_cut cut⟩
  | operation first rest anchor operator split noOf cut before after =>
    have here := on first List.mem_cons_self
    have word := Split.atOperator?_cut cut
    obtain ⟨onBefore, onAfter⟩ := Split.at?_on word on
    refine meets_bind (meets_tell _) fun _ _ => ?_
    refine meets_bind (meets_expect _ (before onBefore)) fun left written => ?_
    refine meets_bind (meets_expect _ (after onAfter)) fun right other => meets_pure ?_
    exact ⟨⟨here, here, written.1, other.1, trivial⟩, written.2.of_cut word⟩
  | name first rest anchor noOf free led => exact meets_bind (meets_tell _) fun _ _ => readName_meets on
  | atom token anchor noOf free unled =>
    have here := on token List.mem_cons_self
    refine meets_bind (meets_tell _) fun _ _ => (readAtom_meets here).weaken ?_ fun _ verbal => verbal
    exact fun node read => ⟨read.1, token, rfl, read.2⟩
  | beside first rest anchor noOf free unled filled given =>
    obtain ⟨here, later⟩ := List.forall_mem_cons.mp on
    refine meets_bind (meets_tell _) fun _ _ => meets_bind (readHeadWord_meets here) fun callee head => ?_
    refine meets_bind (given later) fun argument written => meets_pure ?_
    exact ⟨⟨here, head.1, written.1, trivial⟩, first, rfl, head.2⟩

theorem expect_meets (words : List Token) (anchor : Span) (context : String)
    (on : ∀ token ∈ words, token.span.line = line) :
    (expect words anchor context).Meets (fun node => node.WrittenOn line ∧ Begun words) (·.isVerbal = true) :=
  meets_expect context (read_meets words anchor on)

end Expression
end Parlance
