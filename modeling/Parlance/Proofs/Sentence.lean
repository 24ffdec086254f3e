import Parlance.Proofs.Token.Shape
import Parlance.Sentence

/-! Sentences of a stream of groups. Where as many levels are open as the next group's level says, the next sentence is
the group's words; one level below, a step up stands before them; above, a step down comes first. -/
namespace Parlance

namespace Sentence

variable {words : List Token}

theorem collect_until (last span : Span) (rest : List Token)
    (inner : ∀ token ∈ words, token.kind ≠ .newline ∧ token.kind ≠ .eof) :
    collect last (words ++ Token.newline span :: rest) = (words, span, rest) := by
  induction words generalizing last with
  | nil => rfl
  | cons token words ih =>
    obtain ⟨⟨newline, eof⟩, later⟩ := List.forall_mem_cons.mp inner
    rw [List.cons_append, collect]
    split <;> simp_all

theorem next?_until (span : Span) (rest : List Token) (spoken : words ≠ [])
    (inner : ∀ token ∈ words, token.kind ≠ .newline ∧ token.kind ≠ .eof) :
    next? (words ++ Token.newline span :: rest) = some (⟨words, span⟩, rest) := by
  obtain ⟨first, others, rfl⟩ := List.exists_cons_of_ne_nil spoken
  have noEnd := (inner first List.mem_cons_self).2
  have collected := collect_until first.span span rest inner
  rw [List.cons_append] at collected ⊢
  simp [next?, noEnd, collected]

end Sentence

namespace Group

variable {stop span : Span} {depth : Nat} {group : Group} {all groups own rest : List Group}

/-- The next group is not above the level. -/
def Lower (depth : Nat) (groups : List Group) : Prop :=
  ∀ group ∈ groups.head?, group.level ≤ depth

theorem Lower.mono (lower : Lower depth groups) {higher : Nat} (le : depth ≤ higher) : Lower higher groups :=
  fun group first => (lower group first).trans le

theorem Sound.inner (sound : group.Sound) : ∀ token ∈ group.words, token.kind ≠ .newline ∧ token.kind ≠ .eof := by
  intro token member
  have plain := sound.plain token member
  exact ⟨Kind.ne_of_isLayout plain rfl, Kind.ne_of_isLayout plain rfl⟩

theorem Sound.written (sound : group.Sound) {first : Token} {words : List Token}
    (spelled : group.words = first :: words) :
    first.span.line = group.span.line ∧ ∀ token ∈ words, token.span.line = group.span.line := by
  have spans := sound.spans
  rw [spelled, List.forall_mem_cons] at spans
  exact ⟨congrArg Span.line spans.1, fun token member => congrArg Span.line (spans.2 token member)⟩

theorem stream_level (stop : Span) (group : Group) (rest : List Group) :
    stream stop group.level (group :: rest) =
      group.words ++ Token.newline group.span :: stream stop group.level rest := by
  simp [stream, tokens, opening_same]

theorem stream_up (stop : Span) (rest : List Group) (up : group.level = depth + 1) :
    stream stop depth (group :: rest) = Token.beginIndent group.span :: stream stop group.level (group :: rest) := by
  rw [stream_level, stream, tokens, up, opening_up, ← up]
  simp

theorem stream_down (stop : Span) (lower : Lower depth groups) :
    ∃ span, stream stop (depth + 1) groups = Token.endIndent span :: stream stop depth groups := by
  cases groups with
  | nil => exact ⟨stop, by simp [stream, List.replicate_succ]⟩
  | cons group rest => exact ⟨group.span, by simp [stream, tokens, opening_down group.span (lower group rfl)]⟩

theorem next?_level (stop : Span) (rest : List Group) (sound : group.Sound) :
    Sentence.next? (stream stop group.level (group :: rest)) =
      some (⟨group.words, group.span⟩, stream stop group.level rest) := by
  rw [stream_level]
  exact Sentence.next?_until group.span _ sound.spoken sound.inner

theorem next?_up (stop : Span) (rest : List Group) (sound : group.Sound) (up : group.level = depth + 1) :
    Sentence.next? (stream stop depth (group :: rest)) =
      some (⟨Token.beginIndent group.span :: group.words, group.span⟩, stream stop group.level rest) := by
  rw [stream_up stop rest up, stream_level, ← List.cons_append]
  refine Sentence.next?_until group.span _ (List.cons_ne_nil _ _) ?_
  exact List.forall_mem_cons.mpr ⟨⟨nofun, nofun⟩, sound.inner⟩

theorem stream_begins (stop : Span) (rest : List Group) (sound : group.Sound) :
    ∃ first tokens, stream stop group.level (group :: rest) = first :: tokens ∧ first.kind.isLayout = false := by
  obtain ⟨first, words, spelled⟩ := List.exists_cons_of_ne_nil sound.spoken
  refine ⟨first, words ++ Token.newline group.span :: stream stop group.level rest, ?_, ?_⟩
  · rw [stream_level, spelled, List.cons_append]
  · exact sound.plain first (spelled ▸ List.mem_cons_self)

theorem stream_opens (stop : Span) (rest : List Group) (sound : group.Sound)
    (high : group.level = depth ∨ group.level = depth + 1) :
    ∃ first tokens, stream stop depth (group :: rest) = first :: tokens ∧ first.kind ≠ .endIndent := by
  rcases high with rfl | up
  · obtain ⟨first, tokens, begun, plain⟩ := stream_begins stop rest sound
    exact ⟨first, tokens, begun, Kind.ne_of_isLayout plain rfl⟩
  · exact ⟨_, _, stream_up stop rest up, (Kind.noConfusion ·)⟩

theorem leads_eq {first : Token} {words : List Token} (spelled : group.words = first :: words) (keyword : Keyword) :
    group.leads keyword = first.isKeyword keyword := by
  simp [leads, spelled]

/-- Either everything is closed, or a step down comes, or a group that is at the level or one above. -/
theorem Gradual.standing (gradual : Gradual depth groups) :
    (groups = [] ∧ depth = 0) ∨ (∃ lower, depth = lower + 1 ∧ Lower lower groups) ∨
      ∃ group rest, groups = group :: rest ∧ (group.level = depth ∨ group.level = depth + 1) := by
  cases groups with
  | nil =>
    cases depth with
    | zero => exact .inl ⟨rfl, rfl⟩
    | succ lower => exact .inr (.inl ⟨lower, rfl, nofun⟩)
  | cons group rest =>
    have rise := gradual.tail.1
    by_cases below : group.level < depth
    · refine .inr (.inl ⟨depth - 1, by omega, ?_⟩)
      rintro first ⟨⟩
      omega
    · exact .inr (.inr ⟨group, rest, rfl, by omega⟩)

/-- What a keyword leads is a whole group at the level. -/
theorem led?_stream (gradual : Gradual depth groups) (sound : ∀ group ∈ groups, group.Sound) {keyword : Keyword}
    {token : Token} {sentence : Sentence} {after : List Token}
    (led : Sentence.led? keyword (stream stop depth groups) = some (token, sentence, after)) :
    ∃ group rest, groups = group :: rest ∧ group.level = depth ∧ group.words = token :: sentence.words ∧
      group.leads keyword = true ∧ sentence.stop = group.span ∧ after = stream stop depth rest := by
  have unled {first : Token} {tokens : List Token} (layout : first.kind.isLayout = true) :
      Sentence.led? keyword (first :: tokens) = none := by
    have other : first.isKeyword keyword = false := by
      rw [Token.isKeyword, beq_eq_false_iff_ne]
      exact (Kind.ne_of_isLayout rfl layout).symm
    simp [Sentence.led?, other]
  rcases gradual.standing with ⟨rfl, rfl⟩ | ⟨lower, rfl, below⟩ | ⟨group, rest, rfl, same | up⟩
  · cases (unled rfl).symm.trans led
  · obtain ⟨span, down⟩ := stream_down stop below
    rw [down, unled rfl] at led
    cases led
  · subst same
    have spoken := sound group List.mem_cons_self
    obtain ⟨first, words, spelled⟩ := List.exists_cons_of_ne_nil spoken.spoken
    have inner := spoken.inner
    rw [spelled] at inner
    have collected := Sentence.collect_until first.span group.span (stream stop group.level rest)
      (List.forall_mem_cons.mp inner).2
    rw [stream_level, spelled, List.cons_append, Sentence.led?] at led
    split at led
    · rename_i leads
      rw [collected] at led
      cases led
      exact ⟨group, rest, rfl, rfl, spelled, (leads_eq spelled keyword).trans leads, rfl, rfl⟩
    · cases led
  · rw [stream_up stop rest up, unled rfl] at led
    cases led

/-- The group at `span` is one level above what comes before it. -/
inductive Rises : Nat → List Group → Span → Prop
  | here {depth : Nat} {group : Group} (rest : List Group) (up : group.level = depth + 1) :
      Rises depth (group :: rest) group.span
  | later {depth : Nat} {group : Group} {rest : List Group} {span : Span} (further : Rises group.level rest span) :
      Rises depth (group :: rest) span

theorem Rises.anywhere (rises : Rises depth groups span) (lower : Lower depth groups) (other : Nat) :
    Rises other groups span := by
  cases rises with
  | here rest up =>
    have := lower _ rfl
    omega
  | later further => exact .later further

/-- Nothing has been taken, or what follows is not above the level: either way the level is the one to go on from. -/
def Settled (depth : Nat) (own rest : List Group) : Prop :=
  own = [] ∨ Lower depth rest

theorem Gradual.anywhere {level : Nat} (gradual : Gradual level groups) (lower : Lower (depth + 1) groups) :
    Gradual depth groups := by
  cases groups with
  | nil => exact List.isChain_singleton depth
  | cons group rest => exact List.isChain_cons_cons.mpr ⟨lower group rfl, gradual.tail.2⟩

theorem Gradual.remaining (gradual : Gradual depth (own ++ rest)) (settled : Settled depth own rest) :
    Gradual depth rest := by
  rcases settled with rfl | lower
  · exact gradual
  · -- Only the first of the groups that remain is held against the level, whichever came before it.
    suffices later : ∀ level, Gradual level (own ++ rest) → Gradual depth rest from later depth gradual
    clear gradual
    induction own with
    | nil => exact fun level gradual => gradual.anywhere (lower.mono (Nat.le_succ depth))
    | cons group own ih => exact fun level gradual => ih group.level gradual.tail.2

/-- Groups that can follow at a level, out of all the groups there are. -/
structure Ahead (all : List Group) (depth : Nat) (groups : List Group) : Prop where
  known : ∀ group ∈ groups, group ∈ all
  gradual : Gradual depth groups

theorem Ahead.tail (ahead : Ahead all depth (group :: rest)) : Ahead all group.level rest :=
  ⟨fun other member => ahead.known other (List.mem_cons_of_mem _ member), ahead.gradual.tail.2⟩

theorem Ahead.inside (ahead : Ahead all depth groups) (lower : Lower (depth + 1) groups) :
    Ahead all (depth + 1) groups :=
  ⟨ahead.known, ahead.gradual.anywhere (lower.mono (Nat.le_succ _))⟩

theorem Ahead.remaining (ahead : Ahead all depth (own ++ rest)) (settled : Settled depth own rest) :
    Ahead all depth rest :=
  ⟨fun other member => ahead.known other (List.mem_append_right _ member), ahead.gradual.remaining settled⟩

end Group
end Parlance
