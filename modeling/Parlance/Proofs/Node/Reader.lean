import Parlance.Node.Expression

/-! How an expression is read out of those inside it: an equation for each way in which words can be cut, and the
induction over the cuts. -/
namespace Parlance.Expression

/-- Reports the expression that is read. -/
def report (first : Token) (rest : List Token) : Traced GrammarError Unit :=
  .tell [.expression first.span (first :: rest).length]

/-- Reads what is called, the words before `of`. -/
def readCallee (words : List Token) (anchor : Span) : Traced GrammarError Node :=
  match readShortHead? words anchor with
  | some head => .ofExcept head
  | none => read words anchor

/-- Reads what it is given, the words after `of` if there are any. -/
def readGiven (words : List Token) (anchor : Span) : Traced GrammarError (List Node) :=
  if words.isEmpty then pure [] else (do return [← read words anchor])

section

variable {first : Token} {rest : List Token} {split : Split} {operator : Operator} (anchor : Span)

theorem read_called (cut : Split.atKind? (.keyword .ofWord) (first :: rest) = some split) :
    read (first :: rest) anchor = (do
      report first rest
      let callee ← readCallee split.before split.found.span
      let arguments ← readGiven split.after anchor
      return .call callee arguments first.span.line) := by
  rw [read]
  split
  · rename_i found
    cases cut.symm.trans found
    unfold readCallee readGiven
    cases readShortHead? split.before split.found.span <;> by_cases alone : split.after.isEmpty = true <;>
      simp only [alone, Bool.false_eq_true, reduceIte] <;> rfl
  · rename_i found
    cases cut.symm.trans found

theorem read_operation (noOf : Split.atKind? (.keyword .ofWord) (first :: rest) = none)
    (cut : Split.atOperator? (first :: rest) = some (operator, split)) :
    read (first :: rest) anchor = (do
      report first rest
      let left ← expect split.before split.found.span s!"before '{operator.spelling}'"
      let right ← expect split.after anchor s!"after '{operator.spelling}'"
      return .call (.identifier operator.procedureName first.span.line) [left, right] first.span.line) := by
  rw [read]
  split
  · rename_i found
    cases noOf.symm.trans found
  · split
    · rename_i found
      cases cut.symm.trans found
      unfold expect
      by_cases before : split.before.isEmpty = true <;> by_cases after : split.after.isEmpty = true <;>
        simp only [before, after, Bool.false_eq_true, reduceIte] <;> rfl
    · rename_i found
      cases cut.symm.trans found

theorem read_whole (noOf : Split.atKind? (.keyword .ofWord) (first :: rest) = none)
    (free : Split.atOperator? (first :: rest) = none) :
    read (first :: rest) anchor = (do
      report first rest
      if first.isKeyword .theWord then .ofExcept (readName (first :: rest) anchor)
      else if rest.isEmpty then .ofExcept (readAtom first)
      else do
        let callee ← .ofExcept (readHeadWord first)
        let argument ← read rest anchor
        return .call callee [argument] first.span.line) := by
  rw [read]
  split
  · rename_i found
    cases noOf.symm.trans found
  · split
    · rename_i found
      cases free.symm.trans found
    · rfl

end

/-- What holds of an expression if it holds of those inside it, holds of every expression that is read. -/
theorem read_induction {motive : List Token → Span → Traced GrammarError Node → Prop}
    (nothing : ∀ anchor, motive [] anchor (.fail (.missingExpression anchor "here")))
    (called : ∀ first rest anchor split, Split.atKind? (.keyword .ofWord) (first :: rest) = some split →
      motive split.before split.found.span (read split.before split.found.span) →
      motive split.after anchor (read split.after anchor) →
      motive (first :: rest) anchor (do
        report first rest
        let callee ← readCallee split.before split.found.span
        let arguments ← readGiven split.after anchor
        return .call callee arguments first.span.line))
    (operation : ∀ first rest anchor operator split, Split.atKind? (.keyword .ofWord) (first :: rest) = none →
      Split.atOperator? (first :: rest) = some (operator, split) →
      motive split.before split.found.span (read split.before split.found.span) →
      motive split.after anchor (read split.after anchor) →
      motive (first :: rest) anchor (do
        report first rest
        let left ← expect split.before split.found.span s!"before '{operator.spelling}'"
        let right ← expect split.after anchor s!"after '{operator.spelling}'"
        return .call (.identifier operator.procedureName first.span.line) [left, right] first.span.line))
    (name : ∀ first rest anchor, Split.atKind? (.keyword .ofWord) (first :: rest) = none →
      Split.atOperator? (first :: rest) = none → first.isKeyword .theWord = true →
      motive (first :: rest) anchor (do
        report first rest
        .ofExcept (readName (first :: rest) anchor)))
    (atom : ∀ token anchor, Split.atKind? (.keyword .ofWord) [token] = none → Split.atOperator? [token] = none →
      ¬ token.isKeyword .theWord = true →
      motive [token] anchor (do
        report token []
        .ofExcept (readAtom token)))
    (beside : ∀ first rest anchor, Split.atKind? (.keyword .ofWord) (first :: rest) = none →
      Split.atOperator? (first :: rest) = none → ¬ first.isKeyword .theWord = true → ¬ rest.isEmpty = true →
      motive rest anchor (read rest anchor) →
      motive (first :: rest) anchor (do
        report first rest
        let callee ← .ofExcept (readHeadWord first)
        let argument ← read rest anchor
        return .call callee [argument] first.span.line))
    (words : List Token) (anchor : Span) : motive words anchor (read words anchor) := by
  induction size : words.length using Nat.strongRecOn generalizing words anchor with
  | _ length ih =>
    subst size
    cases words with
    | nil =>
      rw [read]
      exact nothing anchor
    | cons first rest =>
      cases ofCut : Split.atKind? (.keyword .ofWord) (first :: rest) with
      | some split =>
        have lengths := Split.atKind?_length ofCut
        rw [read_called anchor ofCut]
        exact called first rest anchor split ofCut (ih _ (by omega) _ _ rfl) (ih _ (by omega) _ _ rfl)
      | none =>
        cases operatorCut : Split.atOperator? (first :: rest) with
        | some found =>
          obtain ⟨operator, split⟩ := found
          have lengths := Split.atOperator?_length operatorCut
          rw [read_operation anchor ofCut operatorCut]
          exact operation first rest anchor operator split ofCut operatorCut (ih _ (by omega) _ _ rfl)
            (ih _ (by omega) _ _ rfl)
        | none =>
          rw [read_whole anchor ofCut operatorCut]
          by_cases led : first.isKeyword .theWord = true
          · rw [if_pos led]
            exact name first rest anchor ofCut operatorCut led
          · rw [if_neg led]
            by_cases alone : rest.isEmpty = true
            · obtain rfl := List.isEmpty_iff.mp alone
              exact atom first anchor ofCut operatorCut led
            · rw [if_neg alone]
              exact beside first rest anchor ofCut operatorCut led alone (ih _ (by simp) _ _ rfl)

/-! ### What it comes to -/

section

variable {first : Token} {rest : List Token} {split : Split} {operator : Operator} (anchor : Span)

theorem result_called (cut : Split.atKind? (.keyword .ofWord) (first :: rest) = some split) :
    (read (first :: rest) anchor).result =
      ((readShortHead? split.before split.found.span).getD (read split.before split.found.span).result).bind
        fun callee =>
          (if split.after.isEmpty then .ok [] else (read split.after anchor).result.bind (.ok [·])).bind
            fun arguments => .ok (.call callee arguments first.span.line) := by
  rw [read_called anchor cut]
  unfold readCallee readGiven
  cases readShortHead? split.before split.found.span <;> by_cases alone : split.after.isEmpty = true <;>
    simp only [alone, Traced.result_bind, Bool.false_eq_true, reduceIte] <;> rfl

theorem result_operation (noOf : Split.atKind? (.keyword .ofWord) (first :: rest) = none)
    (cut : Split.atOperator? (first :: rest) = some (operator, split)) :
    (read (first :: rest) anchor).result =
      (expect split.before split.found.span s!"before '{operator.spelling}'").result.bind fun left =>
        (expect split.after anchor s!"after '{operator.spelling}'").result.bind fun right =>
          .ok (.call (.identifier operator.procedureName first.span.line) [left, right] first.span.line) := by
  rw [read_operation anchor noOf cut]
  simp only [Traced.result_bind]
  rfl

theorem result_whole (noOf : Split.atKind? (.keyword .ofWord) (first :: rest) = none)
    (free : Split.atOperator? (first :: rest) = none) :
    (read (first :: rest) anchor).result =
      if first.isKeyword .theWord then readName (first :: rest) anchor
      else if rest.isEmpty then readAtom first
      else (readHeadWord first).bind fun callee => (read rest anchor).result.bind fun argument =>
        .ok (.call callee [argument] first.span.line) := by
  rw [read_whole anchor noOf free, Traced.result_bind]
  by_cases led : first.isKeyword .theWord = true <;> by_cases alone : rest.isEmpty = true <;>
    simp only [led, alone, Traced.result_bind, Bool.false_eq_true, reduceIte] <;> rfl

end

end Parlance.Expression
