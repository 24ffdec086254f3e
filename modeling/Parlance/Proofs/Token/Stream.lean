import Mathlib.Data.List.Chain
import Parlance.Proofs.Row

/-! What the tokens of a source look like: one group of tokens for each row, with the change of level in front and the
end of the line behind, and at the end of the source the way back to the outermost level. -/
namespace Parlance

/-- A kind that tells of lines and levels, and not of words. -/
def Kind.isLayout : Kind → Bool
  | .newline | .eof | .beginIndent | .endIndent => true
  | .number | .word | .text | .keyword _ => false

theorem Kind.ne_of_isLayout {kind layout : Kind} (plain : kind.isLayout = false) (other : layout.isLayout = true) :
    kind ≠ layout := by
  rintro rfl
  cases plain.symm.trans other

theorem Text.Word.kind_plain (word : Word) : word.kind.isLayout = false ∧ word.kind ≠ .text := by
  unfold Word.kind
  split
  · simp [Kind.isLayout]
  · split <;> simp [Kind.isLayout]

namespace Token

theorem ofWords_plain (span : Span) (words : List Text.Word) :
    ∀ token ∈ ofWords span words, token.kind.isLayout = false ∧ token.span = span := by
  have given (word : Text.Word) : (ofWord span word).kind.isLayout = false := word.kind_plain.1
  fun_induction ofWords span words with
  | case1 => simp
  | case2 | case4 => simp [Kind.isLayout]
  | case3 word => exact List.forall_mem_singleton.mpr ⟨given word, rfl⟩
  | case5 word next rest _ _ ih => exact List.forall_mem_cons.mpr ⟨⟨rfl, rfl⟩, ih⟩
  | case6 word next rest _ _ ih => exact List.forall_mem_cons.mpr ⟨⟨given word, rfl⟩, ih⟩

/-- Nothing follows a text on its line. -/
theorem ofWords_text_last (span : Span) (words : List Text.Word) :
    ∀ token ∈ (ofWords span words).dropLast, token.kind ≠ .text := by
  have further {first : Token} {rest : List Token} (apart : first.kind ≠ .text)
      (ih : ∀ token ∈ rest.dropLast, token.kind ≠ .text) : ∀ token ∈ (first :: rest).dropLast, token.kind ≠ .text := by
    cases rest with
    | nil => simp
    | cons second rest =>
      rw [List.dropLast_cons_of_ne_nil (List.cons_ne_nil second rest)]
      exact List.forall_mem_cons.mpr ⟨apart, ih⟩
  fun_induction ofWords span words with
  | case1 | case2 | case3 | case4 => simp
  | case5 word next rest _ _ ih => exact further nofun ih
  | case6 word next rest _ _ ih => exact further word.kind_plain.2 ih

end Token

/-- Where a row is, its level, and the tokens of its words. -/
structure Group where
  span : Span
  level : Nat
  words : List Token
deriving DecidableEq, Repr

namespace Group

/-- The tokens that lead from one level to the next one: a step up, or any number of steps down. -/
def opening (span : Span) (before after : Nat) : List Token :=
  if before < after then [Token.beginIndent span] else List.replicate (before - after) (Token.endIndent span)

def tokens (before : Nat) (group : Group) : List Token :=
  opening group.span before group.level ++ group.words ++ [Token.newline group.span]

/-- The tokens of groups that follow a row of the given level, to the end of the source at `stop`. -/
def stream (stop : Span) (level : Nat) : List Group → List Token
  | [] => List.replicate level (Token.endIndent stop) ++ [Token.eof stop]
  | group :: rest => group.tokens level ++ stream stop group.level rest

/-- Whether the first of the words is this keyword. -/
def leads (keyword : Keyword) (group : Group) : Bool :=
  group.words.head?.any (·.isKeyword keyword)

structure Sound (group : Group) : Prop where
  spoken : group.words ≠ []
  plain : ∀ token ∈ group.words, token.kind.isLayout = false
  spans : ∀ token ∈ group.words, token.span = group.span
  text_last : ∀ token ∈ group.words.dropLast, token.kind ≠ .text

/-- From each level the next one is at most one higher. -/
def Gradual (level : Nat) (groups : List Group) : Prop :=
  (level :: groups.map Group.level).IsChain fun before after => after ≤ before + 1

theorem Gradual.tail {level : Nat} {group : Group} {rest : List Group} (gradual : Gradual level (group :: rest)) :
    group.level ≤ level + 1 ∧ Gradual group.level rest :=
  List.isChain_cons_cons.mp gradual

theorem opening_same (span : Span) (level : Nat) : opening span level level = [] := by
  simp [opening]

theorem opening_up (span : Span) (level : Nat) : opening span level (level + 1) = [Token.beginIndent span] := by
  simp [opening]

/-- A way down begins with one step, and the rest of it is the way down from there. -/
theorem opening_down (span : Span) {before after : Nat} (lower : after ≤ before) :
    opening span (before + 1) after = Token.endIndent span :: opening span before after := by
  have steps : before + 1 - after = before - after + 1 := by omega
  simp [opening, steps, List.replicate_succ, Nat.not_lt.mpr lower, Nat.not_lt.mpr (Nat.le_succ_of_le lower)]

end Group

namespace Row

def group (name : String) (unit : Option Indent) (row : Row) : Group :=
  ⟨row.span name, row.level unit, row.words name⟩

theorem group_sound (name : String) (unit : Option Indent) {row : Row} (visible : Text.allBlank row.text = false) :
    (row.group name unit).Sound where
  spoken := row.words_ne_nil name visible
  plain token member := (Token.ofWords_plain _ _ token member).1
  spans token member := (Token.ofWords_plain _ _ token member).2
  text_last := Token.ofWords_text_last _ _

end Row

/-- The rows of a source with their levels and the tokens of their words. -/
def Source.groups (source : Source) : List Group :=
  source.rows.map (Row.group source.name source.unit?)

theorem Source.groups_sound (source : Source) : ∀ group ∈ source.groups, group.Sound := by
  intro group member
  obtain ⟨row, inside, rfl⟩ := List.mem_map.mp member
  exact Row.group_sound _ _ (Row.ofLines_visible row inside)

end Parlance
