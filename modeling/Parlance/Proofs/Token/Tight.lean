import Parlance.Proofs.Node.Ensures
import Parlance.Token.Layout

/-! The words of a line have no blanks in them and are never empty, so neither are the lexemes of the word tokens that a
source gives. -/
namespace Parlance

namespace Text

/-- At least one character, and none of them blank. -/
def Tight (text : String) : Prop :=
  text.toList ≠ [] ∧ ∀ c ∈ text.toList, isBlank c = false

instance (text : String) : Decidable (Tight text) :=
  decidable_of_iff (text.toList.isEmpty = false ∧ text.toList.all (!isBlank ·) = true) (by simp [Tight])

theorem Word.close_tight {seen : List Char} (visible : ∀ c ∈ seen, isBlank c = false) (bounded : Bool) :
    ∀ word ∈ Word.close seen bounded, Tight word.text := by
  cases seen with
  | nil => exact fun word member => absurd member List.not_mem_nil
  | cons c rest =>
    intro word member
    rw [List.mem_singleton.mp member]
    constructor
    · simp
    · intro other inside
      exact visible other (List.mem_reverse.mp (by simpa using inside))

theorem wordsFrom_tight (text : List Char) {seen : List Char} (visible : ∀ c ∈ seen, isBlank c = false) :
    ∀ word ∈ wordsFrom seen text, Tight word.text := by
  induction text generalizing seen with
  | nil => exact Word.close_tight visible true
  | cons c rest ih =>
    simp only [wordsFrom]
    split
    · intro word member
      rcases List.mem_append.mp member with closed | further
      · exact Word.close_tight visible _ word closed
      · exact ih (fun _ none => absurd none List.not_mem_nil) word further
    · rename_i shown
      refine ih ?_
      intro other member
      rcases List.mem_cons.mp member with rfl | older
      · exact Bool.eq_false_iff.mpr shown
      · exact visible other older

theorem words_tight (text : List Char) : ∀ word ∈ words text, Tight word.text :=
  wordsFrom_tight text fun _ none => absurd none List.not_mem_nil

end Text

namespace Token

/-- If the token is a word, it is tight. -/
def Tight (token : Token) : Prop :=
  token.kind = .word → Text.Tight token.lexeme

theorem tight_of_kind {token : Token} (other : token.kind ≠ .word) : token.Tight :=
  fun word => absurd word other

theorem ofWords_tight (span : Span) {words : List Text.Word} (tight : ∀ word ∈ words, Text.Tight word.text) :
    ∀ token ∈ ofWords span words, token.Tight := by
  have given : ∀ word ∈ words, (ofWord span word).Tight := fun word member _ => tight word member
  clear tight
  fun_induction ofWords span words with
  | case1 => exact fun token member => absurd member List.not_mem_nil
  | case2 | case4 =>
    intro token member
    rw [List.mem_singleton.mp member]
    exact tight_of_kind nofun
  | case3 word =>
    intro token member
    rw [List.mem_singleton.mp member]
    exact given word List.mem_cons_self
  | case5 word next rest _ _ ih =>
    refine List.forall_mem_cons.mpr ⟨tight_of_kind nofun, ih ?_⟩
    exact fun later member => given later (List.mem_cons_of_mem _ (List.mem_cons_of_mem _ member))
  | case6 word next rest _ _ ih =>
    refine List.forall_mem_cons.mpr ⟨given word List.mem_cons_self, ih ?_⟩
    exact fun later member => given later (List.mem_cons_of_mem _ member)

/-- All tokens of any source are like this: the words of every line, and the marks between them. -/
structure Pervades (good : Token → Prop) : Prop where
  words : ∀ span text, ∀ token ∈ ofWords span (Text.words text), good token
  beginIndent : ∀ span, good (.beginIndent span)
  endIndent : ∀ span, good (.endIndent span)
  newline : ∀ span, good (.newline span)
  eof : ∀ span, good (.eof span)

theorem tight_pervades : Pervades Tight where
  words span text := ofWords_tight span (Text.words_tight text)
  beginIndent _ := tight_of_kind nofun
  endIndent _ := tight_of_kind nofun
  newline _ := tight_of_kind nofun
  eof _ := tight_of_kind nofun

end Token

namespace Layout

open Traced

variable {good : Token → Prop} (pervades : Token.Pervades good)

include pervades

theorem shift_pervaded {span : Span} {before after : Nat} {tokens : List Token}
    (shifted : shift span before after = .ok tokens) : ∀ token ∈ tokens, good token := by
  unfold shift at shifted
  split at shifted
  · cases shifted
  · split at shifted <;> cases shifted
    · exact List.forall_mem_singleton.mpr (pervades.beginIndent span)
    · intro token member
      rw [(List.mem_replicate.mp member).2]
      exact pervades.endIndent span

theorem move_pervaded (span : Span) (before after : Nat) :
    (move span before after).Ensures fun tokens => ∀ token ∈ tokens, good token := by
  refine ensures_bind (ensures_ofExcept fun tokens ok => shift_pervaded pervades ok) fun tokens given => ?_
  refine ensures_bind (ensures_tell _) fun _ _ => ?_
  dsimp only
  split
  · exact ensures_bind (ensures_tell _) fun _ _ => ensures_pure given
  · exact ensures_pure given

theorem line_pervaded (layout : Layout) (span : Span) (text : List Char) :
    (layout.line span text).Ensures fun result => ∀ token ∈ result.2, good token := by
  unfold line
  generalize Indent.measure text = measured
  obtain ⟨indent, rest⟩ := measured
  dsimp only
  split
  · refine ensures_pure ?_
    exact fun token member => absurd member List.not_mem_nil
  · refine ensures_bind (fun _ _ => trivial) fun placed _ => ?_
    refine ensures_bind (move_pervaded pervades span layout.level placed.level) fun moved given => ?_
    refine ensures_bind (ensures_tell _) fun _ _ => ensures_pure ?_
    intro token member
    rcases List.mem_append.mp member with shifting | rest
    · exact given token shifting
    · rcases List.mem_append.mp rest with word | ending
      · exact pervades.words span _ token word
      · rw [List.mem_singleton.mp ending]
        exact pervades.newline span

theorem lines_pervaded (name : String) (count : Nat) (layout : Layout) (lines : List RawLine) :
    (Layout.lines name count layout lines).Ensures fun tokens => ∀ token ∈ tokens, good token := by
  induction lines generalizing count layout with
  | nil =>
    refine ensures_bind (move_pervaded pervades _ layout.level 0) fun moved given => ?_
    refine ensures_bind (ensures_tell _) fun _ _ => ensures_pure ?_
    intro token member
    rcases List.mem_append.mp member with shifting | ending
    · exact given token shifting
    · rw [List.mem_singleton.mp ending]
      exact pervades.eof _
  | cons line rest ih =>
    cases line with
    | none => exact ensures_fail _ _
    | some text =>
      refine ensures_bind (line_pervaded pervades layout _ text.toList) fun result given => ensures_map ?_
      intro later ok token member
      rcases List.mem_append.mp member with now | further
      · exact given token now
      · exact ih (count + 1) result.1 later ok token further

end Layout

theorem Source.tokens_pervaded {good : Token → Prop} (pervades : Token.Pervades good) {source : Source}
    {tokens : List Token} (lexed : source.tokens.result = .ok tokens) : ∀ token ∈ tokens, good token := by
  have ensured : source.tokens.Ensures fun tokens => ∀ token ∈ tokens, good token := by
    refine Traced.ensures_bind (Layout.lines_pervaded pervades _ 0 .start source.lines) fun tokens given => ?_
    exact Traced.ensures_bind (Traced.ensures_tell _) fun _ _ => Traced.ensures_pure given
  exact ensured tokens lexed

theorem Source.tokens_tight {source : Source} {tokens : List Token} (lexed : source.tokens.result = .ok tokens) :
    ∀ token ∈ tokens, token.Tight :=
  tokens_pervaded Token.tight_pervades lexed

end Parlance
