import Parlance.Proofs.Text.Words
import Parlance.Proofs.Token.Shape

/-! Tokens and the words that they are written with. The tokens of a line can be told from those words alone as long as
no `we` comes to stand before a `mean`, and nothing comes after a text. In a source whose blanks are all ASCII that is
so of the tokens of every line. -/
namespace Parlance

open Text (Word)

theorem Keyword.whole_kind (keyword : Keyword) : (Word.whole keyword.spelling).kind = .keyword keyword := by
  cases keyword <;> rfl

theorem Keyword.spelling_reserved (keyword : Keyword) :
    keyword.spelling ≠ "text" ∧ keyword.spelling ≠ "we" ∧ keyword.spelling ≠ "mean" := by
  cases keyword <;> decide

theorem Keyword.spelling_tight {keyword : Keyword} (single : keyword ≠ .weMeanWord) : Text.Tight keyword.spelling := by
  cases keyword with
  | weMeanWord => exact absurd rfl single
  | _ => decide

theorem Keyword.spelling_of_keyword? {word : Word} {keyword : Keyword} (found : word.keyword? = some keyword) :
    word.text = keyword.spelling := by
  unfold Text.Word.keyword? at found
  split at found
  · have same := List.find?_some found
    exact (beq_iff_eq.mp same).symm
  · cases found

namespace Token

def spelled (token : Token) : List String :=
  match token.kind with
  | .number | .word => [token.lexeme]
  | .text => "text" :: Text.wordsOf token.lexeme
  | .keyword keyword => if keyword = .weMeanWord then ["we", "mean"] else [keyword.spelling]
  | .newline | .eof | .beginIndent | .endIndent => []

/-- The words of the token have the token's kind and lexeme. -/
def Faithful (token : Token) : Prop :=
  match token.kind with
  | .number | .word =>
    Text.Tight token.lexeme ∧ token.lexeme ≠ "text" ∧ (Word.whole token.lexeme).kind = token.kind
  | .text => " ".intercalate (Text.wordsOf token.lexeme) = token.lexeme
  | .keyword keyword => token.lexeme = keyword.spelling
  | .newline | .eof | .beginIndent | .endIndent => True

/-- The tokens can stand next to each other without becoming one. -/
def Joins (token next : Token) : Prop :=
  (token.kind = .text → next.kind.isLayout = true) ∧ ¬ (token.isWord "we" = true ∧ next.isWord "mean" = true)

structure Legible (tokens : List Token) : Prop where
  faithful : ∀ token ∈ tokens, token.Faithful
  joins : tokens.IsChain Joins

/-- The token as it is elsewhere. -/
def moved (span : Span) (token : Token) : Token :=
  { token with span }

variable {token next : Token} {tokens part : List Token}

theorem Joins.of_layout (layout : token.kind.isLayout = true ∨ next.kind.isLayout = true) : Joins token next := by
  have other {kind : Kind} (plain : kind.isLayout = true) : kind ≠ .text ∧ kind ≠ .word := by
    cases kind <;> simp_all [Kind.isLayout]
  rcases layout with layout | layout
  · exact ⟨fun text => absurd text (other layout).1, fun both => by simp [isWord, (other layout).2] at both⟩
  · exact ⟨fun _ => layout, fun both => by simp [isWord, (other layout).2] at both⟩

theorem Joins.of_kind (kind : token.kind ≠ .text) (other : token.kind ≠ .word) (next : Token) : Joins token next :=
  ⟨fun text => absurd text kind, fun both => by simp [isWord, other] at both⟩

namespace Legible

theorem infixed (legible : Legible tokens) (inside : part <:+: tokens) : Legible part :=
  ⟨fun token member => legible.faithful token (inside.subset member), List.IsChain.infix legible.joins inside⟩

theorem nil : Legible [] :=
  ⟨List.forall_mem_nil _, .nil⟩

theorem single (faithful : token.Faithful) : Legible [token] :=
  ⟨List.forall_mem_singleton.mpr faithful, List.isChain_singleton _⟩

theorem cons (faithful : token.Faithful) (joins : ∀ next ∈ tokens.head?, Joins token next)
    (legible : Legible tokens) : Legible (token :: tokens) :=
  ⟨List.forall_mem_cons.mpr ⟨faithful, legible.faithful⟩, List.isChain_cons.mpr ⟨joins, legible.joins⟩⟩

theorem append (first : Legible part) (second : Legible tokens)
    (joins : ∀ last ∈ part.getLast?, ∀ next ∈ tokens.head?, Joins last next) : Legible (part ++ tokens) :=
  ⟨List.forall_mem_append.mpr ⟨first.faithful, second.faithful⟩,
    List.isChain_append.mpr ⟨first.joins, second.joins, joins⟩⟩

theorem text_last (legible : Legible (token :: tokens)) (plain : ∀ next ∈ tokens, next.kind.isLayout = false)
    (text : token.kind = .text) : tokens = [] := by
  cases tokens with
  | nil => rfl
  | cons next rest =>
    have layout := ((List.isChain_cons_cons.mp legible.joins).1).1 text
    rw [plain next List.mem_cons_self] at layout
    cases layout

end Legible

theorem spelled_ne_nil (plain : token.kind.isLayout = false) : token.spelled ≠ [] := by
  unfold spelled
  split
  · exact List.cons_ne_nil _ _
  · exact List.cons_ne_nil _ _
  · exact List.cons_ne_nil _ _
  · split <;> exact List.cons_ne_nil _ _
  all_goals simp_all [Kind.isLayout]

theorem spelled_tight (faithful : token.Faithful) : ∀ word ∈ token.spelled, Text.Tight word := by
  cases kind : token.kind with
  | number | word =>
    simp only [Faithful, kind] at faithful
    simpa [spelled, kind] using faithful.1
  | text =>
    simp only [spelled, kind, List.forall_mem_cons]
    exact ⟨by decide, Text.wordsOf_tight _⟩
  | keyword keyword =>
    simp only [spelled, kind]
    split
    · exact List.forall_mem_cons.mpr ⟨by decide, List.forall_mem_singleton.mpr (by decide)⟩
    · rename_i single
      exact List.forall_mem_singleton.mpr (Keyword.spelling_tight single)
  | newline | eof | beginIndent | endIndent => simp [spelled, kind]

/-! ### From words to tokens -/

theorem ofWords_whole (span : Span) {text : String} {words : List Word} (plain : text ≠ "text")
    (apart : text = "we" → words.head? ≠ some (Word.whole "mean")) :
    ofWords span (Word.whole text :: words) = ofWord span (Word.whole text) :: ofWords span words := by
  cases words with
  | nil => simp [ofWords, Text.Word.isReserved, Word.whole, plain]
  | cons word rest =>
    have split : ((Word.whole text).isReserved "we" && word.isReserved "mean") = false := by
      obtain ⟨spelling, bounded⟩ := word
      simpa [Text.Word.isReserved, Word.whole, and_comm] using apart
    rw [ofWords, split]
    simp [Text.Word.isReserved, Word.whole, plain]

theorem ofWords_text (span : Span) (words : List Word) :
    ofWords span (Word.whole "text" :: words) = [⟨.text, Text.joined words, span⟩] := by
  cases words <;> rfl

theorem ofWords_weMean (span : Span) (words : List Word) :
    ofWords span (Word.whole "we" :: Word.whole "mean" :: words) =
      ⟨.keyword .weMeanWord, Keyword.weMeanWord.spelling, span⟩ :: ofWords span words := by
  simp [ofWords, Text.Word.isReserved, Word.whole]

theorem isWord_of_spelled (faithful : token.Faithful) (first : token.spelled.head? = some "mean") :
    token.isWord "mean" = true := by
  cases kind : token.kind with
  | word => simpa [isWord, spelled, kind] using first
  | number =>
    have same : token.lexeme = "mean" := by simpa [spelled, kind] using first
    simp only [Faithful, kind, same] at faithful
    cases faithful.2.2
  | text => simp [spelled, kind] at first
  | keyword keyword =>
    simp only [spelled, kind] at first
    split at first
    · simp at first
    · exact absurd (Option.some.inj first) keyword.spelling_reserved.2.2
  | newline | eof | beginIndent | endIndent => simp [spelled, kind] at first

theorem head?_spelled (faithful : ∀ token ∈ tokens, token.Faithful)
    (plain : ∀ token ∈ tokens, token.kind.isLayout = false)
    (first : (tokens.flatMap spelled).head? = some "mean") : ∃ next ∈ tokens.head?, next.isWord "mean" = true := by
  cases tokens with
  | nil => cases first
  | cons token rest =>
    refine ⟨token, rfl, isWord_of_spelled (faithful token List.mem_cons_self) ?_⟩
    have spoken := spelled_ne_nil (plain token List.mem_cons_self)
    rwa [List.flatMap_cons, List.head?_append_of_ne_nil _ spoken] at first

/-- Legible words of a line, written out, are read as what they are. -/
theorem ofWords_spelled (span : Span) (legible : Legible tokens)
    (plain : ∀ token ∈ tokens, token.kind.isLayout = false) :
    ofWords span ((tokens.flatMap spelled).map Word.whole) = tokens.map (moved span) := by
  induction tokens with
  | nil => rfl
  | cons token rest ih =>
    obtain ⟨shown, later⟩ := List.forall_mem_cons.mp plain
    have faithful := legible.faithful token List.mem_cons_self
    have further := ih (legible.infixed (List.suffix_cons token rest).isInfix) later
    -- A token of one word, unless that is a `we` before a `mean`.
    have single (spelling : token.spelled = [token.lexeme]) (ordinary : token.lexeme ≠ "text")
        (same : (Word.whole token.lexeme).kind = token.kind) (word : token.lexeme = "we" → token.kind = .word) :
        ofWords span (((token :: rest).flatMap spelled).map Word.whole) = (token :: rest).map (moved span) := by
      rw [List.flatMap_cons, spelling, List.singleton_append, List.map_cons, ofWords_whole span ordinary, further]
      · simp [ofWord, moved, same]
      · intro we next
        rw [List.head?_map] at next
        obtain ⟨_, first, meaning⟩ := Option.map_eq_some_iff.mp next
        cases meaning
        obtain ⟨next, begins, mean⟩ := head?_spelled (fun other member => legible.faithful other (.tail _ member)) later first
        have joins := (List.isChain_cons.mp legible.joins).1 next begins
        exact joins.2 ⟨by simp [isWord, word we, we], mean⟩
    cases kind : token.kind with
    | word =>
      simp only [Faithful, kind] at faithful
      exact single (by simp [spelled, kind]) faithful.2.1 (faithful.2.2.trans kind.symm) fun _ => kind
    | number =>
      simp only [Faithful, kind] at faithful
      refine single (by simp [spelled, kind]) faithful.2.1 (faithful.2.2.trans kind.symm) fun we => ?_
      rw [we] at faithful
      cases faithful.2.2
    | text =>
      obtain rfl := legible.text_last later kind
      simp only [Faithful, kind] at faithful
      have joined : Text.joined ((Text.wordsOf token.lexeme).map Word.whole) = token.lexeme := by
        rw [Text.joined, List.map_map]
        exact (congrArg _ (List.map_id _)).trans faithful
      rw [List.flatMap_singleton, spelled, kind, List.map_cons, ofWords_text, joined]
      simp [moved, kind]
    | keyword keyword =>
      simp only [Faithful, kind] at faithful
      by_cases means : keyword = .weMeanWord
      · subst means
        have spelling : token.spelled = ["we", "mean"] := by simp [spelled, kind]
        rw [List.flatMap_cons, spelling, List.map_append, List.map_cons, List.map_cons, List.map_nil, List.cons_append,
          List.cons_append, List.nil_append, ofWords_weMean, further]
        simp [moved, kind, faithful]
      · refine single (by simp [spelled, kind, means, faithful]) ?_ ?_ fun we => ?_
        · rw [faithful]
          exact keyword.spelling_reserved.1
        · rw [faithful, kind, keyword.whole_kind]
        · exact absurd (faithful.symm.trans we) keyword.spelling_reserved.2.1
    | newline | eof | beginIndent | endIndent =>
      rw [kind] at shown
      cases shown

/-! ### The tokens of a source -/

theorem ofWord_faithful (span : Span) {word : Word} (bounded : word.bounded = true) (tight : Text.Tight word.text)
    (ordinary : word.isReserved "text" = false) : (ofWord span word).Faithful := by
  have whole : Word.whole word.text = word := by
    obtain ⟨text, flag⟩ := word
    exact congrArg (Word.mk text) bounded.symm
  have other : word.text ≠ "text" := by
    simpa [Text.Word.isReserved, bounded] using ordinary
  have given : Text.Tight word.text ∧ word.text ≠ "text" ∧ (Word.whole word.text).kind = word.kind :=
    ⟨tight, other, congrArg _ whole⟩
  cases kind : word.kind with
  | word | number => simpa only [Faithful, ofWord, kind] using given
  | keyword keyword =>
    simp only [Faithful, ofWord, kind]
    unfold Text.Word.kind at kind
    split at kind
    · rename_i found
      cases kind
      exact Keyword.spelling_of_keyword? found
    · split at kind <;> cases kind
  | text => exact absurd kind word.kind_plain.2
  | newline | eof | beginIndent | endIndent =>
    have plain := word.kind_plain.1
    rw [kind] at plain
    cases plain

theorem text_of_head? {span : Span} {word : Word} {rest : List Word} {text : String}
    (first : token ∈ (ofWords span (word :: rest)).head?) (plain : token.isWord text = true) : word.text = text := by
  have spelling : (ofWord span word).isWord text = true → word.text = text := by
    intro same
    simp only [isWord, Bool.and_eq_true, beq_iff_eq] at same
    exact same.2
  cases rest with
  | nil =>
    rw [ofWords] at first
    split at first <;> cases first
    · cases plain
    · exact spelling plain
  | cons next rest =>
    rw [ofWords] at first
    split at first
    · cases first
      cases plain
    · split at first <;> cases first
      · cases plain
      · exact spelling plain

theorem ofWords_legible (span : Span) {words : List Word}
    (given : ∀ word ∈ words, word.bounded = true ∧ Text.Tight word.text) : Legible (ofWords span words) := by
  fun_induction ofWords span words with
  | case1 => exact .nil
  | case2 word text => exact .single rfl
  | case3 word ordinary =>
    obtain ⟨bounded, tight⟩ := given word List.mem_cons_self
    exact .single (ofWord_faithful span bounded tight (Bool.eq_false_iff.mpr ordinary))
  | case4 word next rest text =>
    refine .single ?_
    have tight : ∀ part ∈ (next :: rest).map Word.text, Text.Tight part := by
      intro part member
      obtain ⟨word, inside, rfl⟩ := List.mem_map.mp member
      exact (given word (.tail _ inside)).2
    exact congrArg _ (Text.wordsOf_intercalate tight)
  | case5 word next rest ordinary means ih =>
    refine .cons rfl (fun other _ => .of_kind (Kind.noConfusion ·) (Kind.noConfusion ·) other) (ih ?_)
    exact fun word member => given word (.tail _ (.tail _ member))
  | case6 word next rest ordinary apart ih =>
    obtain ⟨bounded, tight⟩ := given word List.mem_cons_self
    refine .cons (ofWord_faithful span bounded tight (Bool.eq_false_iff.mpr ordinary)) ?_
      (ih fun word member => given word (.tail _ member))
    intro token first
    refine ⟨fun text => absurd text word.kind_plain.2, ?_⟩
    rintro ⟨we, mean⟩
    have following := text_of_head? first mean
    simp only [isWord, Bool.and_eq_true, beq_iff_eq] at we
    have further := (given next (.tail _ List.mem_cons_self)).1
    refine apart ?_
    simp only [Text.Word.isReserved, bounded, further, following, Bool.true_and, Bool.and_eq_true, beq_iff_eq]
    exact ⟨we.2, trivial⟩

theorem Legible.after_layout (layout : ∀ token ∈ part, token.kind.isLayout = true) (legible : Legible tokens) :
    Legible (part ++ tokens) := by
  induction part with
  | nil => exact legible
  | cons token part ih =>
    obtain ⟨first, later⟩ := List.forall_mem_cons.mp layout
    refine .cons ?_ (fun _ _ => .of_layout (.inl first)) (ih later)
    unfold Faithful
    split <;> simp_all [Kind.isLayout]

end Token

theorem Group.opening_layout (span : Span) (before after : Nat) :
    ∀ token ∈ opening span before after, token.kind.isLayout = true := by
  unfold opening
  split
  · exact List.forall_mem_singleton.mpr rfl
  · intro token member
    rw [(List.mem_replicate.mp member).2]
    rfl

theorem Group.stream_legible (stop : Span) {groups : List Group} (legible : ∀ group ∈ groups, Token.Legible group.words)
    (level : Nat) : Token.Legible (stream stop level groups) := by
  induction groups generalizing level with
  | nil =>
    rw [stream, ← List.append_nil (_ ++ _)]
    refine .after_layout (List.forall_mem_append.mpr ⟨?_, List.forall_mem_singleton.mpr rfl⟩) .nil
    intro token member
    rw [(List.mem_replicate.mp member).2]
    rfl
  | cons group rest ih =>
    obtain ⟨first, later⟩ := List.forall_mem_cons.mp legible
    rw [stream, tokens, List.append_assoc, List.append_assoc]
    refine .after_layout (opening_layout _ _ _) (first.append ?_ ?_)
    · exact .after_layout (List.forall_mem_singleton.mpr rfl) (ih later group.level)
    · rintro last - _ ⟨⟩
      exact .of_layout (.inr rfl)

namespace Source

/-- All blanks of the source are ASCII characters. -/
def AsciiBlanks (source : Source) : Prop :=
  ∀ line ∈ source.lines, ∀ text ∈ line, ∀ c ∈ text.toList, Text.isBlank c = true → Text.isAscii c = true

theorem groups_legible {source : Source} (blanks : source.AsciiBlanks) :
    ∀ group ∈ source.groups, Token.Legible group.words := by
  intro group member
  obtain ⟨row, inside, rfl⟩ := List.mem_map.mp member
  obtain ⟨⟨line, number⟩, given, found⟩ := List.mem_filterMap.mp inside
  obtain ⟨text, rfl, kept⟩ := Option.bind_eq_some_iff.mp found
  split at kept
  · cases kept
  · cases kept
    have ascii := blanks _ (List.fst_mem_of_mem_zipIdx given) text rfl
    exact Token.ofWords_legible _ fun word member =>
      ⟨Text.words_bounded ascii word member, Text.words_tight _ word member⟩

theorem tokens_legible {source : Source} {tokens : List Token} (blanks : source.AsciiBlanks)
    (lexed : source.tokens.result = .ok tokens) : Token.Legible tokens := by
  obtain ⟨rfl, -⟩ := tokens_stream lexed
  exact Group.stream_legible _ (groups_legible blanks) 0

end Source
end Parlance
