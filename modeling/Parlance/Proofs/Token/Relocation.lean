import Parlance.Proofs.Token.Indentation

/-! Where words and lines stand has no part in how lines are cut into tokens: lines that stand elsewhere give the same
tokens, or the same error, at the other place. -/
namespace Parlance

/-- Other names for sources, and other numbers for their lines. -/
structure Relocation where
  name : String → String
  line : Nat → Nat

def Span.relocate (move : Relocation) (span : Span) : Span :=
  ⟨move.name span.source, move.line span.line⟩

def Token.relocate (move : Relocation) (token : Token) : Token :=
  ⟨token.kind, token.lexeme, token.span.relocate move⟩

theorem Token.ofWords_relocate (move : Relocation) (span : Span) (words : List Text.Word) :
    ofWords (span.relocate move) words = (ofWords span words).map (relocate move) := by
  fun_induction ofWords span words with
  | case1 => rfl
  | case2 word text => simp [ofWords, text, relocate]
  | case3 word text => simp [ofWords, text, relocate, ofWord]
  | case4 word next rest text => simp [ofWords, text, relocate]
  | case5 word next rest text mean ih => simp [ofWords, text, mean, relocate, ih]
  | case6 word next rest text mean ih => simp [ofWords, text, mean, relocate, ofWord, ih]

namespace Group

variable {move : Relocation}

def relocate (move : Relocation) (group : Group) : Group :=
  ⟨group.span.relocate move, group.level, group.words.map (Token.relocate move)⟩

theorem opening_relocate (move : Relocation) (span : Span) (before after : Nat) :
    opening (span.relocate move) before after = (opening span before after).map (Token.relocate move) := by
  unfold opening
  split
  · rfl
  · rw [List.map_replicate]
    rfl

theorem stream_relocate (move : Relocation) (stop : Span) (level : Nat) (groups : List Group) :
    stream (stop.relocate move) level (groups.map (relocate move)) =
      (stream stop level groups).map (Token.relocate move) := by
  induction groups generalizing level with
  | nil =>
    rw [List.map_nil, stream, stream, List.map_append, List.map_replicate]
    rfl
  | cons group rest ih =>
    have same : (group.relocate move).tokens level = (group.tokens level).map (Token.relocate move) := by
      rw [tokens, tokens, List.map_append, List.map_append, ← opening_relocate]
      rfl
    rw [List.map_cons, stream, stream, List.map_append, same, ← ih]
    rfl

end Group

section Recast

variable {α β γ δ ε ζ : Type} {blame : ε → ζ} {image : α → β} {shape : γ → δ}

/-- The result with its value or its reason replaced. -/
def recast (blame : ε → ζ) (image : α → β) (result : Except ε α) : Except ζ β :=
  (result.map image).mapError blame

theorem bind_recast {first : Except ε α} {second : Except ζ β} {next : α → Except ε γ} {other : β → Except ζ δ}
    (before : second = recast blame image first) (after : ∀ a, other (image a) = recast blame shape (next a)) :
    second.bind other = recast blame shape (first.bind next) := by
  subst before
  cases first with
  | error error => rfl
  | ok a => exact after a

theorem recast_bind {first second : Except ε α} {next other : α → Except ε γ}
    (before : recast blame image first = recast blame image second)
    (after : ∀ a b, image a = image b → recast blame shape (next a) = recast blame shape (other b)) :
    recast blame shape (first.bind next) = recast blame shape (second.bind other) := by
  cases first with
  | error error =>
    cases second with
    | error other => exact congrArg Except.error (Except.error.inj before)
    | ok b => cases before
  | ok a =>
    cases second with
    | error other => cases before
    | ok b => exact after a b (Except.ok.inj before)

end Recast

def TokenError.relocate (move : Relocation) : TokenError → TokenError
  | .mixedIndentation span => .mixedIndentation (span.relocate move)
  | .inconsistentIndentation span found unit => .inconsistentIndentation (span.relocate move) found unit
  | .indentJump span levels => .indentJump (span.relocate move) levels
  | .unreadable source cause => .unreadable (move.name source) cause

/-- The tokens at the other place, or the error there. -/
def Relocation.tokens (move : Relocation) (result : Except TokenError (List Token)) : Except TokenError (List Token) :=
  recast (TokenError.relocate move) (List.map (Token.relocate move)) result

namespace Layout

variable (relocation : Relocation) (layout : Layout) (span : Span)

theorem levelOf_relocate (indent unit : Indent) :
    levelOf (span.relocate relocation) indent unit =
      recast (TokenError.relocate relocation) id (levelOf span indent unit) := by
  unfold levelOf
  split <;> rfl

theorem place_relocate (indent : Indent) :
    (layout.place (span.relocate relocation) indent).result =
      recast (TokenError.relocate relocation) id (layout.place span indent).result := by
  have level := levelOf_relocate relocation span indent
  unfold place
  split
  · rfl
  · split
    · simp only [Traced.result_bind]
      exact bind_recast (level _) fun _ => rfl
    · simp only [Traced.result_bind]
      change (levelOf (span.relocate relocation) indent indent).bind _ = recast _ id ((levelOf span indent indent).bind _)
      exact bind_recast (level indent) fun _ => rfl

theorem move_relocate (before after : Nat) :
    (move (span.relocate relocation) before after).result =
      relocation.tokens (move span before after).result := by
  rw [move_result, move_result, Group.opening_relocate]
  split <;> rfl

theorem line_relocate (text : List Char) :
    (layout.line (span.relocate relocation) text).result =
      recast (TokenError.relocate relocation) (Prod.map id (List.map (Token.relocate relocation)))
        (layout.line span text).result := by
  unfold line
  dsimp only
  split
  · rfl
  · simp only [Traced.result_bind]
    refine bind_recast (place_relocate relocation layout span _) fun placed => ?_
    refine bind_recast (move_relocate relocation span _ _) fun moved => ?_
    rw [Token.ofWords_relocate]
    refine congrArg (fun tokens => Except.ok (placed, tokens)) ?_
    rw [List.map_append, List.map_append]
    rfl

variable {relocation layout}

/-- Where all lines stand as one, one line gives the same whatever its number. -/
theorem lines_relocate_cons (uniform : ∀ first second, relocation.line first = relocation.line second) {name : String}
    (line : RawLine) {rest others : List RawLine}
    (later : ∀ layout first second,
      relocation.tokens (Layout.lines name first layout rest).result =
        relocation.tokens (Layout.lines name second layout others).result)
    (first second : Nat) :
    relocation.tokens (Layout.lines name first layout (line :: rest)).result =
      relocation.tokens (Layout.lines name second layout (line :: others)).result := by
  cases line with
  | none => rfl
  | some text =>
    have spans : Span.relocate relocation ⟨name, first + 1⟩ = Span.relocate relocation ⟨name, second + 1⟩ :=
      congrArg (Span.mk (relocation.name name)) (uniform _ _)
    have here := line_relocate relocation layout ⟨name, first + 1⟩ text.toList
    rw [spans, line_relocate] at here
    rw [Layout.lines, Layout.lines, Traced.result_bind, Traced.result_bind]
    refine recast_bind here.symm ?_
    rintro ⟨after, tokens⟩ ⟨other, more⟩ alike
    have layouts : after = other := (Prod.mk.inj alike).1
    subst layouts
    have append {tokens : List Token} {count : Nat} {lines : List RawLine} :
        (((tokens ++ ·) <$> Layout.lines name count after lines)).result =
          (Layout.lines name count after lines).result.bind fun later => .ok (tokens ++ later) := by
      rw [Traced.result_map]
      cases (Layout.lines name count after lines).result <;> rfl
    rw [append, append]
    refine recast_bind (later after (first + 1) (second + 1)) fun tail further same => ?_
    refine congrArg Except.ok ?_
    rw [List.map_append, List.map_append, same]
    exact congrArg (· ++ _) (Prod.mk.inj alike).2

theorem lines_relocate (uniform : ∀ first second, relocation.line first = relocation.line second) (name : String)
    (lines : List RawLine) (layout : Layout) (first second : Nat) :
    relocation.tokens (Layout.lines name first layout lines).result =
      relocation.tokens (Layout.lines name second layout lines).result := by
  induction lines generalizing layout first second with
  | nil =>
    have ended (count : Nat) : relocation.tokens (Layout.lines name count layout []).result =
          .ok (Group.opening (Span.relocate relocation ⟨name, count⟩) layout.level 0 ++
            [Token.eof (Span.relocate relocation ⟨name, count⟩)]) := by
      rw [Group.opening_relocate]
      simp [Layout.lines, move_result, Relocation.tokens, recast, Except.bind, Except.map, Except.mapError]
      rfl
    have spans : Span.relocate relocation ⟨name, first⟩ = Span.relocate relocation ⟨name, second⟩ :=
      congrArg (Span.mk (relocation.name name)) (uniform _ _)
    rw [ended, ended, spans]
  | cons line rest ih => exact lines_relocate_cons uniform line ih first second

/-- A blank line leaves no trace but the numbers of the lines after it. -/
theorem lines_padded (uniform : ∀ first second, relocation.line first = relocation.line second) (name : String)
    {blank : String} (nothing : Text.allBlank blank.toList = true) (before after : List RawLine) (layout : Layout)
    (first second : Nat) :
    relocation.tokens (Layout.lines name first layout (before ++ after)).result =
      relocation.tokens (Layout.lines name second layout (before ++ some blank :: after)).result := by
  induction before generalizing layout first second with
  | nil =>
    rw [List.nil_append, List.nil_append, lines_blank name second layout after nothing]
    exact lines_relocate uniform name after layout first (second + 1)
  | cons line before ih => exact lines_relocate_cons uniform line ih first second

end Layout

end Parlance
