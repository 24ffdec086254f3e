import Parlance.Proofs.Node.Relocation
import Parlance.Proofs.Sentence

/-! Streams that go on where another stream ends. What is read from the shorter stream is read from the longer one as
well, and nothing of what follows becomes part of it. -/
namespace Parlance

/-- How a stream goes on where another one ends: it stands elsewhere, and more tokens follow, with which no statement
can be continued. If `ends` holds, they are no more than an end of its own. -/
structure Extension where
  move : Relocation
  more : List Token
  unled : ∀ keyword, keyword = .otherwiseWord ∨ keyword = .otifWord → Sentence.led? keyword more = none
  ends : Prop

namespace Extension

/-- The second stream is the first one, extended. Steps of indentation may stand anywhere if more lines follow. -/
inductive Follows (extension : Extension) : List Token → List Token → Prop
  | stop {token : Token} (kind : token.kind = .eof)
      (ended : extension.ends → extension.more = [token.relocate extension.move]) :
      Follows extension [token] extension.more
  | step {token other : Token} {tokens twin : List Token} (indent : token.kind = .beginIndent ∨ token.kind = .endIndent)
      (same : other.kind = token.kind) (ended : extension.ends → other = token.relocate extension.move)
      (follows : Follows extension tokens twin) : Follows extension (token :: tokens) (other :: twin)
  | line {words : List Token} {span : Span} {tokens twin : List Token} (spoken : words ≠ [])
      (plain : ∀ token ∈ words, token.kind.isLayout = false) (follows : Follows extension tokens twin) :
      Follows extension (words ++ Token.newline span :: tokens)
        (words.map (Token.relocate extension.move) ++ Token.newline (span.relocate extension.move) :: twin)

end Extension

namespace Parsed

variable {tokens twin after other : List Token} {α β γ δ : Type} {extension : Extension} {image : α → β} {shape : γ → δ}

/-- What the first reading comes to, the second comes to elsewhere, and it leaves the same, extended. -/
structure Tracks (extension : Extension) (image : α → β) (first : Parsed tokens α) (second : Parsed twin β) : Prop where
  ok : ∀ a, first.result = .ok a → second.result = .ok (image a) ∧ extension.Follows first.rest second.rest
  error : extension.ends → ∀ error, first.result = .error error →
    second.result = .error (error.relocate extension.move)

theorem tracks_done (follows : extension.Follows tokens twin) (a : α) :
    (done a : Parsed tokens α).Tracks extension image (done (image a) : Parsed twin β) where
  ok := by
    rintro _ ⟨⟩
    exact ⟨rfl, follows⟩
  error := nofun

theorem tracks_error {first : Parsed tokens α} {second : Parsed twin β} {error : GrammarError}
    (failed : first.result = .error error)
    (same : extension.ends → second.result = .error (error.relocate extension.move)) :
    first.Tracks extension image second where
  ok a read := by cases failed.symm.trans read
  error ends other found := by
    cases failed.symm.trans found
    exact same ends

theorem tracks_ofTraced {first : Traced GrammarError α} {second : Traced GrammarError β}
    (follows : extension.Follows tokens twin) (same : second.result = extension.move.echo image first.result) :
    (ofTraced first : Parsed tokens α).Tracks extension image (ofTraced second : Parsed twin β) where
  ok a read := by
    refine ⟨same.trans ?_, follows⟩
    rw [show first.result = .ok a from read]
    rfl
  error _ error failed := by
    refine same.trans ?_
    rw [show first.result = .error error from failed]
    rfl

theorem tracks_widen {first : Parsed after α} {second : Parsed other β} {later : after <:+ tokens}
    {further : other <:+ twin} (given : first.Tracks extension image second) :
    (first.widen later).Tracks extension image (second.widen further) :=
  ⟨given.ok, given.error⟩

theorem tracks_tell {first : Parsed tokens α} {second : Parsed twin β} {events others : List Event}
    (given : first.Tracks extension image second) :
    (first.tell events).Tracks extension image (second.tell others) :=
  ⟨given.ok, given.error⟩

theorem tracks_map {first : Parsed tokens α} {second : Parsed twin β} {f : α → γ} {g : β → δ}
    (given : first.Tracks extension image second) (same : ∀ a, g (image a) = shape (f a)) :
    (first.map f).Tracks extension shape (second.map g) := by
  unfold map
  cases read : first.result with
  | error error =>
    refine ⟨nofun, ?_⟩
    rintro ends _ ⟨⟩
    rw [given.error ends error read]
    rfl
  | ok a =>
    obtain ⟨reached, follows⟩ := given.ok a read
    refine ⟨?_, nofun⟩
    rintro _ ⟨⟩
    rw [reached]
    exact ⟨congrArg Except.ok (same a), follows⟩

theorem tracks_andThen {first : Parsed tokens α} {second : Parsed twin β}
    {next : (rest : List Token) → rest <:+ tokens → α → Parsed rest γ}
    {further : (rest : List Token) → rest <:+ twin → β → Parsed rest δ} (before : first.Tracks extension image second)
    (later : ∀ rest left within inside a, extension.Follows rest left →
      (next rest within a).Tracks extension shape (further left inside (image a))) :
    (first.andThen next).Tracks extension shape (second.andThen further) := by
  unfold andThen
  cases read : first.result with
  | error error =>
    refine ⟨nofun, ?_⟩
    rintro ends _ ⟨⟩
    rw [before.error ends error read]
  | ok a =>
    obtain ⟨reached, follows⟩ := before.ok a read
    rw [reached]
    exact tracks_tell (tracks_widen (later _ _ first.within second.within a follows))

end Parsed

namespace Sentence

variable {words rest : List Token} {span : Span}

/-- A line begins with a keyword, or it does not. -/
theorem led?_until (keyword : Keyword) (first : Token) (span : Span) (rest : List Token)
    (inner : ∀ token ∈ words, token.kind ≠ .newline ∧ token.kind ≠ .eof) :
    led? keyword (first :: words ++ Token.newline span :: rest) =
      if first.isKeyword keyword then some (first, ⟨words, span⟩, rest) else none := by
  rw [List.cons_append, led?, collect_until first.span span rest inner]

theorem inner_of_plain (plain : ∀ token ∈ words, token.kind.isLayout = false) :
    ∀ token ∈ words, token.kind ≠ .newline ∧ token.kind ≠ .eof :=
  fun token member => ⟨Kind.ne_of_isLayout (plain token member) rfl, Kind.ne_of_isLayout (plain token member) rfl⟩

end Sentence

namespace Extension

variable {extension : Extension} {tokens twin : List Token}

theorem Follows.led? (follows : extension.Follows tokens twin) {keyword : Keyword}
    (continuing : keyword = .otherwiseWord ∨ keyword = .otifWord) :
    Sentence.led? keyword tokens = none ∧ Sentence.led? keyword twin = none ∨
      ∃ token sentence after other, Sentence.led? keyword tokens = some (token, sentence, after) ∧
        Sentence.led? keyword twin = some (token.relocate extension.move, sentence.relocate extension.move, other) ∧
        extension.Follows after other := by
  cases follows with
  | @stop token kind ended =>
    refine .inl ⟨?_, extension.unled keyword continuing⟩
    simp [Sentence.led?, Token.isKeyword, kind]
  | @step token other tokens twin indent same ended follows =>
    rcases indent with kind | kind <;> exact .inl (by simp [Sentence.led?, Token.isKeyword, same, kind])
  | @line words span tokens twin spoken plain follows =>
    obtain ⟨first, others, rfl⟩ := List.exists_cons_of_ne_nil spoken
    have inner := Sentence.inner_of_plain (List.forall_mem_cons.mp plain).2
    have moved : ∀ token ∈ others.map (Token.relocate extension.move), token.kind ≠ .newline ∧ token.kind ≠ .eof := by
      simpa [Token.relocate] using inner
    rw [List.map_cons, Sentence.led?_until keyword first span tokens inner,
      Sentence.led?_until keyword _ _ twin moved]
    by_cases led : first.isKeyword keyword = true
    · exact .inr ⟨first, ⟨others, span⟩, tokens, twin, if_pos led, if_pos led, follows⟩
    · exact .inl ⟨if_neg led, if_neg led⟩

end Extension

namespace Sentence

theorem next?_indented {token : Token} (indent : token.kind = .beginIndent ∨ token.kind = .endIndent)
    (rest : List Token) : ∃ words stop after, next? (token :: rest) = some (⟨token :: words, stop⟩, after) := by
  rcases indent with kind | kind <;>
    exact ⟨_, _, _, by simp only [next?, collect, kind, reduceCtorEq, reduceIte]; rfl⟩

end Sentence

namespace Statement

variable {token : Token} {words : List Token}

theorem read_stepped (indent : token.kind = .beginIndent ∨ token.kind = .endIndent) (words : List Token) (stop : Span)
    (tokens : List Token) :
    (read ⟨token :: words, stop⟩ tokens).result = .error (.unexpectedIndentation token.span) := by
  rw [read]
  dsimp only
  rcases indent with kind | kind <;> rw [kind] <;> rfl

theorem readBlock_up (token : Token) (kind : token.kind = .beginIndent) (anchor : Span) (rest : List Token) :
    readBlock anchor (token :: rest) = ((readRest anchor rest).widen (List.suffix_cons token rest)).tell [] := by
  rw [readBlock, Token.consume, if_pos kind]
  rfl

theorem readBlock_refused (token : Token) (kind : token.kind ≠ .beginIndent) (anchor : Span) (rest : List Token) :
    (readBlock anchor (token :: rest)).result = .error (.expectedBlock token.span token.describe) := by
  rw [readBlock, Token.consume, if_neg kind]
  rfl

theorem readRest_down (token : Token) (kind : token.kind = .endIndent) (anchor : Span) (rest : List Token) :
    readRest anchor (token :: rest) = (Parsed.done []).widen (List.suffix_cons token rest) := by
  rw [readRest, if_pos kind]

theorem readRest_up (token : Token) (kind : token.kind = .beginIndent) (anchor : Span) (rest : List Token) :
    (readRest anchor (token :: rest)).result = .error (.unexpectedIndentation token.span) := by
  obtain ⟨words, stop, after, next⟩ := Sentence.next?_indented (.inl kind) rest
  rw [readRest, if_neg (by simp [kind])]
  split
  · rename_i found
    cases next.symm.trans found
  · rename_i found
    cases next.symm.trans found
    have failed := read_stepped (.inl kind) words stop after
    simp only [Parsed.widen, Parsed.andThen, failed]

theorem readRest_stop (token : Token) (kind : token.kind = .eof) (anchor : Span) (rest : List Token) :
    (readRest anchor (token :: rest)).result = .error (.unterminatedBlock token.span) := by
  rw [readRest, if_neg (by simp [kind])]
  split
  · rfl
  · rename_i found
    simp [Sentence.next?, kind] at found

theorem readRest_line (anchor span : Span) (rest : List Token) (spoken : words ≠ [])
    (plain : ∀ token ∈ words, token.kind.isLayout = false) :
    ∃ within, readRest anchor (words ++ Token.newline span :: rest) =
      Parsed.widen within ((read ⟨words, span⟩ rest).andThen fun remaining _ node =>
        (readRest anchor remaining).map (node :: ·)) := by
  have next := Sentence.next?_until span rest spoken (Sentence.inner_of_plain plain)
  obtain ⟨first, others, rfl⟩ := List.exists_cons_of_ne_nil spoken
  rw [List.cons_append] at next ⊢
  refine ⟨Sentence.next?_suffix next, ?_⟩
  rw [readRest, if_neg (Kind.ne_of_isLayout (plain first List.mem_cons_self) rfl)]
  split
  · rename_i found
    cases next.symm.trans found
  · rename_i found
    cases next.symm.trans found
    rfl

/-! ### Readers on a stream and on a longer one -/

section Readers

variable {extension : Extension} {tokens twin : List Token}

/-- What all readers do on streams so short that their measures stay below the bound. -/
structure Carries (extension : Extension) (bound : Nat) : Prop where
  read : ∀ sentence tokens twin, 4 * tokens.length + 3 < bound → extension.Follows tokens twin →
    (read sentence tokens).Tracks extension (Node.relined extension.move.line)
      (read (sentence.relocate extension.move) twin)
  conditional : ∀ keyword words stop tokens twin, 4 * tokens.length + 2 < bound → extension.Follows tokens twin →
    (readConditional keyword words stop tokens).Tracks extension (Node.relined extension.move.line)
      (readConditional (keyword.relocate extension.move) (words.map (Token.relocate extension.move))
        (stop.relocate extension.move) twin)
  loop : ∀ keyword words stop tokens twin, 4 * tokens.length + 2 < bound → extension.Follows tokens twin →
    (readLoop keyword words stop tokens).Tracks extension (Node.relined extension.move.line)
      (readLoop (keyword.relocate extension.move) (words.map (Token.relocate extension.move))
        (stop.relocate extension.move) twin)
  definition : ∀ keyword words stop tokens twin, 4 * tokens.length + 2 < bound → extension.Follows tokens twin →
    (readDefinition keyword words stop tokens).Tracks extension (Node.relined extension.move.line)
      (readDefinition (keyword.relocate extension.move) (words.map (Token.relocate extension.move))
        (stop.relocate extension.move) twin)
  block : ∀ anchor tokens twin, 4 * tokens.length + 1 < bound → extension.Follows tokens twin →
    (readBlock anchor tokens).Tracks extension (Node.relinedAll extension.move.line)
      (readBlock (anchor.relocate extension.move) twin)
  rest : ∀ anchor tokens twin, 4 * tokens.length < bound → extension.Follows tokens twin →
    (readRest anchor tokens).Tracks extension (Node.relinedAll extension.move.line)
      (readRest (anchor.relocate extension.move) twin)

variable (follows : extension.Follows tokens twin)

include follows

theorem read_carries (sentence : Sentence) (carries : Carries extension (4 * tokens.length + 3)) :
    (read sentence tokens).Tracks extension (Node.relined extension.move.line)
      (read (sentence.relocate extension.move) twin) := by
  obtain ⟨words, stop⟩ := sentence
  cases words with
  | nil =>
    rw [read, read]
    exact Parsed.tracks_done follows _
  | cons first rest =>
    rw [read, read]
    dsimp only [Sentence.relocate, List.map_cons]
    refine Parsed.tracks_tell ?_
    simp only [show (first.relocate extension.move).kind = first.kind from rfl]
    split
    · exact carries.conditional first rest stop tokens twin (by omega) follows
    · exact carries.loop first rest stop tokens twin (by omega) follows
    · exact carries.definition first rest stop tokens twin (by omega) follows
    · refine Parsed.tracks_ofTraced follows ?_
      cases rest <;> rfl
    · exact Parsed.tracks_ofTraced follows (readReturns_relocate extension.move first rest stop)
    · exact Parsed.tracks_error rfl fun _ => rfl
    · exact Parsed.tracks_error rfl fun _ => rfl
    · exact Parsed.tracks_ofTraced follows (readPlain_relocate extension.move first (first :: rest) stop)

/-- A condition and the block after it, whatever comes next. -/
theorem readHead_carries {words : List Token} {stop : Span} {context : String}
    {next other : (rest : List Token) → Node → List Node → Parsed rest Node}
    (carries : Carries extension (4 * tokens.length + 2))
    (further : ∀ rest left condition block, rest.length ≤ tokens.length → extension.Follows rest left →
      (next rest condition block).Tracks extension (Node.relined extension.move.line)
        (other left (condition.relined extension.move.line) (Node.relinedAll extension.move.line block))) :
    ((Parsed.ofTraced (Expression.expect words stop context)).andThen fun tokens _ condition =>
      (readBlock stop tokens).andThen fun tokens _ block => next tokens condition block :
        Parsed tokens Node).Tracks extension (Node.relined extension.move.line)
    ((Parsed.ofTraced (Expression.expect (words.map (Token.relocate extension.move)) (stop.relocate extension.move)
        context)).andThen fun tokens _ condition =>
      (readBlock (stop.relocate extension.move) tokens).andThen fun tokens _ block => other tokens condition block :
        Parsed twin Node) := by
  have condition := Expression.expect_relocate extension.move context
    (Expression.read_relocate extension.move words stop)
  refine Parsed.tracks_andThen (Parsed.tracks_ofTraced follows condition) ?_
  intro rest left within inside condition here
  have shorter := within.length_le
  refine Parsed.tracks_andThen (carries.block stop rest left (by omega) here) ?_
  intro last remaining nearer _ block after
  exact further last remaining condition block (nearer.length_le.trans shorter) after

theorem readOtherwise_carries {bound : Nat} (carries : Carries extension bound)
    (small : 4 * tokens.length + 1 < bound) (sentence : Sentence) {make other : List Node → Node}
    (made : ∀ nodes, other (Node.relinedAll extension.move.line nodes) = (make nodes).relined extension.move.line) :
    ((Parsed.ofTraced (.ofExcept (Sentence.noMore sentence.words))).andThen fun tokens _ _ =>
      (readBlock sentence.stop tokens).map make : Parsed tokens Node).Tracks extension
        (Node.relined extension.move.line)
    ((Parsed.ofTraced (.ofExcept (Sentence.noMore (sentence.relocate extension.move).words))).andThen fun tokens _ _ =>
      (readBlock (sentence.relocate extension.move).stop tokens).map other : Parsed twin Node) := by
  have ended := noMore_relocate extension.move sentence.words
  refine Parsed.tracks_andThen (Parsed.tracks_ofTraced follows ended) ?_
  intro rest left within _ _ here
  have shorter := within.length_le
  exact Parsed.tracks_map (carries.block sentence.stop rest left (by omega) here) made

omit follows in
/-- A reading that depends on whether the next line continues the statement. -/
theorem tracks_led {rest left : List Token} (here : extension.Follows rest left) {keyword : Keyword}
    (continuing : keyword = .otherwiseWord ∨ keyword = .otifWord)
    {next : (token : Token) → (sentence : Sentence) → (after : List Token) →
      Sentence.led? keyword rest = some (token, sentence, after) → Parsed rest Node}
    {other : (token : Token) → (sentence : Sentence) → (after : List Token) →
      Sentence.led? keyword left = some (token, sentence, after) → Parsed left Node}
    {first : Sentence.led? keyword rest = none → Parsed rest Node}
    {second : Sentence.led? keyword left = none → Parsed left Node}
    (further : ∀ token sentence after remaining led alike, after.length < rest.length →
      extension.Follows after remaining → (next token sentence after led).Tracks extension
        (Node.relined extension.move.line)
        (other (token.relocate extension.move) (sentence.relocate extension.move) remaining alike))
    (ended : ∀ unled alike, (first unled).Tracks extension (Node.relined extension.move.line) (second alike)) :
    (match led : Sentence.led? keyword rest with
      | some (token, sentence, after) => next token sentence after led
      | none => first led).Tracks extension (Node.relined extension.move.line)
    (match led : Sentence.led? keyword left with
      | some (token, sentence, after) => other token sentence after led
      | none => second led) := by
  obtain ⟨unled, alike⟩ | ⟨token, sentence, after, remaining, led, alike, later⟩ := here.led? continuing
  · split
    · rename_i found
      cases unled.symm.trans found
    · split
      · rename_i found
        cases alike.symm.trans found
      · exact ended unled alike
  · split
    · rename_i found
      cases led.symm.trans found
      split
      · rename_i found
        cases alike.symm.trans found
        exact further token sentence after remaining led alike (Sentence.led?_shorter led) later
      · rename_i found
        cases alike.symm.trans found
    · rename_i found
      cases led.symm.trans found

theorem readLoop_carries (keyword : Token) (words : List Token) (stop : Span)
    (carries : Carries extension (4 * tokens.length + 2)) :
    (readLoop keyword words stop tokens).Tracks extension (Node.relined extension.move.line)
      (readLoop (keyword.relocate extension.move) (words.map (Token.relocate extension.move))
        (stop.relocate extension.move) twin) := by
  rw [readLoop, readLoop]
  refine readHead_carries follows carries ?_
  intro rest left condition body short here
  refine tracks_led here (.inl rfl) ?_ fun _ _ => Parsed.tracks_done here _
  intro token sentence after remaining _ _ shorter further
  exact Parsed.tracks_widen (readOtherwise_carries further carries (by omega) sentence fun _ => rfl)

theorem readConditional_carries (keyword : Token) (words : List Token) (stop : Span)
    (carries : Carries extension (4 * tokens.length + 2)) :
    (readConditional keyword words stop tokens).Tracks extension (Node.relined extension.move.line)
      (readConditional (keyword.relocate extension.move) (words.map (Token.relocate extension.move))
        (stop.relocate extension.move) twin) := by
  rw [readConditional, readConditional]
  refine readHead_carries follows carries ?_
  intro rest left condition thenBlock short here
  refine tracks_led here (.inl rfl) ?_ fun _ _ => tracks_led here (.inr rfl) ?_ fun _ _ => Parsed.tracks_done here _
  · intro token sentence after remaining _ _ shorter further
    exact Parsed.tracks_widen (readOtherwise_carries further carries (by omega) sentence fun _ => rfl)
  · intro otif sentence after remaining _ _ shorter further
    refine Parsed.tracks_widen (Parsed.tracks_map ?_ fun _ => rfl)
    exact carries.conditional otif sentence.words sentence.stop after remaining (by omega) further

theorem readDefinition_carries (keyword : Token) (words : List Token) (stop : Span)
    (carries : Carries extension (4 * tokens.length + 2)) :
    (readDefinition keyword words stop tokens).Tracks extension (Node.relined extension.move.line)
      (readDefinition (keyword.relocate extension.move) (words.map (Token.relocate extension.move))
        (stop.relocate extension.move) twin) := by
  have heading := readHeading_relocate extension.move keyword words
  rw [readDefinition, readDefinition, heading]
  cases readHeading keyword words with
  | error error => exact Parsed.tracks_error rfl fun _ => rfl
  | ok names =>
    have block := carries.block stop tokens twin (by omega) follows
    exact Parsed.tracks_tell (Parsed.tracks_map block fun _ => rfl)

theorem readBlock_carries (anchor : Span) (carries : Carries extension (4 * tokens.length + 1)) :
    (readBlock anchor tokens).Tracks extension (Node.relinedAll extension.move.line)
      (readBlock (anchor.relocate extension.move) twin) := by
  cases follows with
  | @stop token kind ended =>
    have other : token.kind ≠ .beginIndent := by simp [kind]
    refine Parsed.tracks_error (readBlock_refused token other anchor []) fun ends => ?_
    rw [ended ends]
    exact readBlock_refused (token.relocate extension.move) other _ []
  | @step token other tokens twin indent same ended follows =>
    by_cases kind : token.kind = .beginIndent
    · rw [readBlock_up token kind, readBlock_up other (same.trans kind)]
      have rest := carries.rest anchor tokens twin (by simp only [List.length_cons]; omega) follows
      exact Parsed.tracks_tell (Parsed.tracks_widen rest)
    · refine Parsed.tracks_error (readBlock_refused token kind anchor tokens) fun ends => ?_
      rw [ended ends]
      exact readBlock_refused (token.relocate extension.move) kind _ twin
  | @line words span tokens twin spoken plain follows =>
    obtain ⟨first, others, rfl⟩ := List.exists_cons_of_ne_nil spoken
    have kind : first.kind ≠ .beginIndent := Kind.ne_of_isLayout (plain first List.mem_cons_self) rfl
    refine Parsed.tracks_error (readBlock_refused first kind anchor _) fun _ => ?_
    exact readBlock_refused (first.relocate extension.move) kind _ _

theorem readRest_carries (anchor : Span) (carries : Carries extension (4 * tokens.length)) :
    (readRest anchor tokens).Tracks extension (Node.relinedAll extension.move.line)
      (readRest (anchor.relocate extension.move) twin) := by
  cases follows with
  | @stop token kind ended =>
    refine Parsed.tracks_error (readRest_stop token kind anchor []) fun ends => ?_
    rw [ended ends]
    exact readRest_stop (token.relocate extension.move) kind _ []
  | @step token other tokens twin indent same ended follows =>
    rcases indent with kind | kind
    · refine Parsed.tracks_error (readRest_up token kind anchor tokens) fun ends => ?_
      rw [ended ends]
      exact readRest_up (token.relocate extension.move) kind _ twin
    · rw [readRest_down token kind, readRest_down other (same.trans kind)]
      exact Parsed.tracks_widen (Parsed.tracks_done follows [])
  | @line words span tokens twin spoken plain follows =>
    have moved : ∀ token ∈ words.map (Token.relocate extension.move), token.kind.isLayout = false := by
      simpa [Token.relocate] using plain
    obtain ⟨within, first⟩ := readRest_line anchor span tokens spoken plain
    obtain ⟨inside, second⟩ := readRest_line (anchor.relocate extension.move) (span.relocate extension.move) twin
      (by simpa using spoken) moved
    have small : 4 * tokens.length + 3 < 4 * (words ++ Token.newline span :: tokens).length := by
      simp only [List.length_append, List.length_cons]
      omega
    rw [first, second]
    refine Parsed.tracks_widen (Parsed.tracks_andThen (carries.read ⟨words, span⟩ tokens twin small follows) ?_)
    intro rest left nearer _ node here
    have shorter := nearer.length_le
    exact Parsed.tracks_map (carries.rest anchor rest left (by omega) here) fun _ => rfl

omit follows in
theorem carries (extension : Extension) (bound : Nat) : Carries extension bound := by
  -- The bound is on the measure by which the readers end, so each may rely on those that it calls.
  induction bound using Nat.strongRecOn with
  | _ bound ih =>
    constructor
    · exact fun sentence tokens twin small follows => read_carries follows sentence (ih _ small)
    · exact fun keyword words stop tokens twin small follows =>
        readConditional_carries follows keyword words stop (ih _ small)
    · exact fun keyword words stop tokens twin small follows => readLoop_carries follows keyword words stop (ih _ small)
    · exact fun keyword words stop tokens twin small follows =>
        readDefinition_carries follows keyword words stop (ih _ small)
    · exact fun anchor tokens twin small follows => readBlock_carries follows anchor (ih _ small)
    · exact fun anchor tokens twin small follows => readRest_carries follows anchor (ih _ small)

end Readers

end Statement

namespace Program

open Statement

variable {words : List Token}

theorem readStatements_stop (token : Token) (kind : token.kind = .eof) (rest : List Token) :
    (readStatements (token :: rest)).result = .ok [] := by
  rw [readStatements]
  split
  · rfl
  · rename_i found
    simp [Sentence.next?, kind] at found

theorem readStatements_indented (token : Token) (indent : token.kind = .beginIndent ∨ token.kind = .endIndent)
    (rest : List Token) : (readStatements (token :: rest)).result = .error (.unexpectedIndentation token.span) := by
  obtain ⟨words, stop, after, next⟩ := Sentence.next?_indented indent rest
  rw [readStatements]
  split
  · rename_i found
    cases next.symm.trans found
  · rename_i found
    cases next.symm.trans found
    have failed := read_stepped indent words stop after
    simp only [Parsed.widen, Parsed.andThen, failed]

theorem readStatements_line (span : Span) (rest : List Token) (spoken : words ≠ [])
    (plain : ∀ token ∈ words, token.kind.isLayout = false) :
    (readStatements (words ++ Token.newline span :: rest)).result =
      ((Statement.read ⟨words, span⟩ rest).andThen fun remaining _ node =>
        (readStatements remaining).map (node :: ·)).result := by
  have next := Sentence.next?_until span rest spoken (Sentence.inner_of_plain plain)
  rw [readStatements]
  split
  · rename_i found
    cases next.symm.trans found
  · rename_i found
    cases next.symm.trans found
    rfl

section Results

variable {fit : List Node → Prop} {ends : Prop} {blame : GrammarError → Prop}

theorem holds_of_ok {nodes : List Node} (fine : fit nodes) :
    (∀ others, (Except.ok nodes : Except GrammarError (List Node)) = .ok others → fit others) ∧
    (ends → ∀ error, (Except.ok nodes : Except GrammarError (List Node)) = .error error → blame error) := by
  refine ⟨?_, ?_⟩
  · intro others same
    cases same
    exact fine
  · intro _ error same
    cases same

theorem holds_of_error {error : GrammarError} (blamed : ends → blame error) :
    (∀ nodes, (Except.error error : Except GrammarError (List Node)) = .ok nodes → fit nodes) ∧
    (ends → ∀ other, (Except.error error : Except GrammarError (List Node)) = .error other → blame other) := by
  refine ⟨?_, ?_⟩
  · intro nodes same
    cases same
  · intro ended other same
    cases same
    exact blamed ended

end Results

/-- Where a stream goes on, its statements are followed by those of the rest. -/
theorem readStatements_extended {extension : Extension} {tokens twin : List Token}
    (follows : extension.Follows tokens twin) :
    (∀ nodes, (readStatements tokens).result = .ok nodes → (readStatements twin).result =
      (readStatements extension.more).result.map (Node.relinedAll extension.move.line nodes ++ ·)) ∧
    (extension.ends → ∀ error, (readStatements tokens).result = .error error →
      (readStatements twin).result = .error (error.relocate extension.move)) := by
  induction size : tokens.length using Nat.strongRecOn generalizing tokens twin with
  | _ length ih =>
    subst size
    cases follows with
    | @stop token kind ended =>
      rw [readStatements_stop token kind]
      refine holds_of_ok ?_
      cases (readStatements extension.more).result <;> rfl
    | @step token other tokens twin indent same ended follows =>
      rw [readStatements_indented token indent, readStatements_indented other (same ▸ indent)]
      refine holds_of_error fun ends => ?_
      rw [ended ends]
      rfl
    | @line words span tokens twin spoken plain follows =>
      have moved : ∀ token ∈ words.map (Token.relocate extension.move), token.kind.isLayout = false := by
        simpa [Token.relocate] using plain
      rw [readStatements_line span tokens spoken plain,
        readStatements_line _ twin (by simpa using spoken) moved]
      have here := (carries extension _).read ⟨words, span⟩ tokens twin (Nat.lt_succ_self _) follows
      have within := (Statement.read ⟨words, span⟩ tokens).within.length_le
      have shorter : tokens.length < (words ++ Token.newline span :: tokens).length := by
        simp only [List.length_append, List.length_cons]
        omega
      cases read : (Statement.read ⟨words, span⟩ tokens).result with
      | error error =>
        simp only [Parsed.andThen, read]
        refine holds_of_error fun ends => ?_
        simp only [Sentence.relocate] at here
        rw [here.error ends error read]
      | ok node =>
        obtain ⟨reached, left⟩ := here.ok node read
        obtain ⟨fine, failed⟩ := ih _ (within.trans_lt shorter) left rfl
        simp only [Sentence.relocate] at reached fine failed
        simp only [Parsed.andThen, read, reached, Parsed.tell, Parsed.widen, Parsed.map]
        cases later : (readStatements (Statement.read ⟨words, span⟩ tokens).rest).result with
        | error error =>
          refine holds_of_error fun ends => ?_
          rw [failed ends error later]
          rfl
        | ok nodes =>
          refine holds_of_ok ?_
          rw [fine nodes later]
          cases (readStatements extension.more).result <;> rfl

end Program

namespace Group

variable {extension : Extension} {stop last : Span} {groups others : List Group}

theorem opening_indent (span : Span) (before after : Nat) :
    ∀ token ∈ opening span before after, token.kind = .beginIndent ∨ token.kind = .endIndent := by
  unfold opening
  split
  · exact List.forall_mem_singleton.mpr (.inl rfl)
  · intro token member
    rw [(List.mem_replicate.mp member).2]
    exact .inr rfl

theorem follows_steps {steps tokens twin : List Token}
    (indent : ∀ token ∈ steps, token.kind = .beginIndent ∨ token.kind = .endIndent)
    (follows : extension.Follows tokens twin) :
    extension.Follows (steps ++ tokens) (steps.map (Token.relocate extension.move) ++ twin) := by
  induction steps with
  | nil => exact follows
  | cons token steps ih =>
    obtain ⟨here, later⟩ := List.forall_mem_cons.mp indent
    exact .step here rfl (fun _ => rfl) (ih later)

/-- The way down at the end of a stream is gone in the longer one as well, before its next group. -/
theorem follows_end (lower : Lower 0 others) (more : extension.more = stream last 0 others)
    (ended : extension.ends → others = [] ∧ last = stop.relocate extension.move) (level : Nat) :
    extension.Follows (stream stop level []) (stream last level others) := by
  induction level with
  | zero =>
    rw [← more]
    refine .stop rfl fun ends => ?_
    obtain ⟨rfl, rfl⟩ := ended ends
    exact more
  | succ level ih =>
    obtain ⟨span, down⟩ := stream_down last (lower.mono (Nat.zero_le level))
    rw [down]
    refine .step (.inr rfl) rfl (fun ends => ?_) ih
    obtain ⟨rfl, rfl⟩ := ended ends
    exact (List.cons.inj down).1.symm

theorem follows_stream (sound : ∀ group ∈ groups, group.Sound) (lower : Lower 0 others)
    (more : extension.more = stream last 0 others)
    (ended : extension.ends → others = [] ∧ last = stop.relocate extension.move) (level : Nat) :
    extension.Follows (stream stop level groups)
      (stream last level (groups.map (relocate extension.move) ++ others)) := by
  induction groups generalizing level with
  | nil => exact follows_end lower more ended level
  | cons group rest ih =>
    obtain ⟨here, later⟩ := List.forall_mem_cons.mp sound
    rw [List.map_cons, List.cons_append, stream, stream, tokens, tokens, List.append_assoc, List.append_assoc,
      List.append_assoc, List.append_assoc]
    simp only [relocate, opening_relocate]
    exact follows_steps (opening_indent _ _ _) (.line here.spoken here.plain (ih later group.level))

end Group

/-- A stream that stands elsewhere, with nothing after it. -/
def Extension.elsewhere (move : Relocation) (stop : Span) : Extension where
  move := move
  more := [Token.eof (stop.relocate move)]
  unled := fun _ _ => rfl
  ends := True

/-- A program that stands elsewhere is the same program there, or fails for the same reason. -/
theorem Program.readStatements_relocate (move : Relocation) (stop : Span) {groups : List Group}
    (sound : ∀ group ∈ groups, group.Sound) :
    (readStatements ((Group.stream stop 0 groups).map (Token.relocate move))).result =
      move.echo (Node.relinedAll move.line) (readStatements (Group.stream stop 0 groups)).result := by
  have follows : (Extension.elsewhere move stop).Follows (Group.stream stop 0 groups)
      (Group.stream (stop.relocate move) 0 (groups.map (Group.relocate move) ++ [])) :=
    Group.follows_stream sound (fun _ first => absurd first (Option.not_mem_none _)) rfl (fun _ => ⟨rfl, rfl⟩) 0
  rw [List.append_nil, Group.stream_relocate] at follows
  obtain ⟨fine, failed⟩ := readStatements_extended follows
  cases read : (readStatements (Group.stream stop 0 groups)).result with
  | error error => exact failed trivial error read
  | ok nodes =>
    have ended : (readStatements (Extension.elsewhere move stop).more).result = .ok [] :=
      readStatements_stop _ rfl []
    rw [fine nodes read, ended]
    exact congrArg Except.ok (List.append_nil _)

end Parlance
