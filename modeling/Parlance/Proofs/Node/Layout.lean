import Parlance.Proofs.Node.Typeset

/-! The lines of a program: something is on each of them, and no line is more than one level above the one before. -/
namespace Parlance

theorem Token.Writes.tight {tokens : List Token} {words : List String} (writes : Writes tokens words) :
    ∀ word ∈ words, Text.Tight word := by
  rw [← writes.spelled]
  intro word member
  obtain ⟨token, inside, within⟩ := List.mem_flatMap.mp member
  exact spelled_tight (writes.legible.faithful token inside) word within

theorem Token.Writes.ne_nil {tokens : List Token} {words : List String} (writes : Writes tokens words)
    (some : tokens ≠ []) : words ≠ [] := by
  rw [← writes.spelled]
  obtain ⟨token, rest, rfl⟩ := List.exists_cons_of_ne_nil some
  rw [List.flatMap_cons]
  exact List.append_ne_nil_of_left_ne_nil (spelled_ne_nil (writes.plain token List.mem_cons_self)) _

namespace Node

variable {level : Nat} {line : Line} {lines more : List Line}

theorem Sayable.filled {node : Node} (sayable : node.Sayable) (keyword : Keyword) (single : keyword ≠ .weMeanWord)
    (level : Nat) : Line.Filled ⟨level, node.heading keyword.spelling⟩ := by
  obtain ⟨tokens, writes, heads⟩ := sayable.writes single
  exact ⟨writes.ne_nil heads.ne_nil, writes.tight⟩

theorem filled_otherwise (level : Nat) : Line.Filled ⟨level, ["otherwise"]⟩ :=
  ⟨List.cons_ne_nil _ _, List.forall_mem_singleton.mpr (by decide)⟩

namespace Laid

theorem nil (level : Nat) : Laid level [] :=
  ⟨List.forall_mem_nil _, nofun, List.forall_mem_nil _, .nil⟩

theorem append (laid : Laid level lines) (later : Laid level more) : Laid level (lines ++ more) where
  filled := List.forall_mem_append.mpr ⟨laid.filled, later.filled⟩
  starts := by
    intro line first
    cases lines with
    | nil => exact later.starts line first
    | cons => exact laid.starts line first
  above := List.forall_mem_append.mpr ⟨laid.above, later.above⟩
  gradual := by
    refine List.isChain_append.mpr ⟨laid.gradual, later.gradual, fun last final first begins => ?_⟩
    have low := laid.above last (List.mem_of_getLast? final)
    rw [later.starts first begins]
    exact Nat.le_succ_of_le low

/-- A line and, one level above it, what is inside. -/
theorem nest (filled : line.Filled) (laid : Laid (line.level + 1) lines) : Laid line.level (line :: lines) where
  filled := List.forall_mem_cons.mpr ⟨filled, laid.filled⟩
  starts := by
    rintro _ ⟨⟩
    rfl
  above := List.forall_mem_cons.mpr ⟨Nat.le_refl _, fun line member => Nat.le_of_succ_le (laid.above line member)⟩
  gradual := List.isChain_cons.mpr ⟨fun first begins => (laid.starts first begins).le, laid.gradual⟩

end Laid

mutual

theorem laid_node : (node : Node) → (∀ statement ∈ node.statements, statement.Printable) → {line : Line} →
    line.Filled → Laid line.level (line :: node.blockLines line.level)
  | .call .., _, _, filled | .identifier .., _, _, filled | .literal .., _, _, filled | .assignment .., _, _, filled
  | .breaks .., _, _, filled | .returns .., _, _, filled => .nest filled (.nil _)
  | .conditional _ thenBlock elseBlock _, printable, _, filled => by
    obtain ⟨inThen, inElse⟩ := List.forall_mem_append.mp (List.forall_mem_cons.mp printable).2
    exact (Laid.nest filled (laid_all thenBlock inThen _)).append (laid_else elseBlock inElse _)
  | .loop _ body otherwise _, printable, _, filled => by
    obtain ⟨inBody, inOther⟩ := List.forall_mem_append.mp (List.forall_mem_cons.mp printable).2
    refine (Laid.nest filled (laid_all body inBody _)).append ?_
    split
    · exact .nil _
    · exact .nest (filled_otherwise _) (laid_all otherwise inOther _)
  | .definition _ _ body _ _, printable, _, filled =>
    .nest filled (laid_all body (List.forall_mem_cons.mp printable).2 _)

theorem laid_all : (nodes : List Node) → (∀ statement ∈ statementsAll nodes, statement.Printable) → (level : Nat) →
    Laid level (linesAll level nodes)
  | [], _, level => .nil level
  | node :: rest, printable, level => by
    obtain ⟨here, later⟩ := List.forall_mem_append.mp printable
    have filled := (here node node.mem_statements).sayable.filled .ifWord nofun level
    exact (laid_node node here filled).append (laid_all rest later level)

theorem laid_else : (nodes : List Node) → (∀ statement ∈ statementsAll nodes, statement.Printable) → (level : Nat) →
    Laid level (linesElse level nodes)
  | [], _, level => .nil level
  | node :: rest, printable, level => by
    obtain ⟨here, later⟩ := List.forall_mem_append.mp printable
    have sayable := (here node node.mem_statements).sayable
    rw [linesElse]
    split
    · exact laid_node node here (sayable.filled .otifWord nofun level)
    · have inside := laid_node node here (sayable.filled .ifWord nofun (level + 1))
      exact .nest (filled_otherwise level) (inside.append (laid_all rest later (level + 1)))

end

end Node
end Parlance
