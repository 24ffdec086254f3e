import Parlance.Proofs.Node.Proper

/-! How statements, blocks and programs are read from the tokens of groups. Each reader takes a row of groups, makes of
them the nodes whose outline they are, and leaves the stream as it was found, at the same level and at the beginning of
a line. -/
namespace Parlance

namespace Statement

open Traced Expression

variable {all : List Group}

open Parlance.Group

/-- Some of the groups hold the items, the statements in them are proper, and the other groups are left. -/
structure Takes (all : List Group) (stop : Span) (depth : Nat) (groups : List Group) (items : List Item)
    (statements : List Node) (after : List Token) (own rest : List Group) : Prop where
  split : groups = own ++ rest
  left : after = stream stop depth rest
  settled : Settled depth own rest
  fits : List.Forall₂ Item.Fits items own
  proper : ∀ node ∈ statements, node.Proper all

/-- What a statement on the line of a group comes to. -/
def Reads (all : List Group) (stop : Span) (continues : Nat → Bool) (group : Group) (groups : List Group) (node : Node)
    (after : List Token) : Prop :=
  node.line = group.span.line ∧
    ∃ own rest, Takes all stop group.level groups (node.inside continues group.level) node.statements after own rest

/-- What a statement comes to that has blocks of its own. -/
def Opens (all : List Group) (stop : Span) (continues : Nat → Bool) (group : Group) (groups : List Group) (node : Node)
    (after : List Token) : Prop :=
  node.line = group.span.line ∧
    ∃ own rest, Takes all stop group.level groups (node.inside continues group.level) node.statements after own rest ∧
      Lower group.level rest

theorem Opens.reads {stop : Span} {continues : Nat → Bool} {group : Group} {groups : List Group} {node : Node}
    {after : List Token} (opens : Opens all stop continues group groups node after) :
    Reads all stop continues group groups node after := by
  obtain ⟨line, own, rest, takes, _⟩ := opens
  exact ⟨line, own, rest, takes⟩

/-- What the statements of a block one level up come to. -/
def ReadsBlock (all : List Group) (stop : Span) (continues : Nat → Bool) (depth : Nat) (groups : List Group)
    (nodes : List Node) (after : List Token) : Prop :=
  ∃ own rest, Takes all stop depth groups (Node.items continues .statement (depth + 1) nodes)
    (Node.statementsAll nodes) after own rest ∧ Lower depth rest

namespace Takes

variable {stop : Span} {depth : Nat} {groups own rest : List Group} {items more : List Item}
  {statements others : List Node} {tokens left : List Token}

theorem node {node : Node} (proper : node.Proper all)
    (takes : Takes all stop depth groups items statements tokens own rest) :
    Takes all stop depth groups items (node :: statements) tokens own rest :=
  ⟨takes.split, takes.left, takes.settled, takes.fits, List.forall_mem_cons.mpr ⟨proper, takes.proper⟩⟩

theorem cons {group : Group} {item : Item} (fits : item.Fits group) (lower : Lower depth rest)
    (takes : Takes all stop depth groups items statements tokens own rest) :
    Takes all stop depth (group :: groups) (item :: items) statements tokens (group :: own) rest :=
  ⟨congrArg (group :: ·) takes.split, takes.left, .inr lower, .cons fits takes.fits, takes.proper⟩

theorem append {further last : List Group} (takes : Takes all stop depth groups items statements tokens own rest)
    (next : Takes all stop depth rest more others left further last) (lower : Lower depth last) :
    Takes all stop depth groups (items ++ more) (statements ++ others) left (own ++ further) last := by
  refine ⟨?_, next.left, .inr lower, List.rel_append takes.fits next.fits, ?_⟩
  · rw [takes.split, next.split, List.append_assoc]
  · exact List.forall_mem_append.mpr ⟨takes.proper, next.proper⟩

end Takes

/-- What all readers do on streams so short that their measures stay below the bound. -/
structure Follows (all : List Group) (stop : Span) (continues : Nat → Bool) (bound : Nat) : Prop where
  read : ∀ group groups, 4 * (stream stop group.level groups).length + 3 < bound → group ∈ all →
    Ahead all group.level groups → (Statement.read ⟨group.words, group.span⟩ (stream stop group.level groups)).Meets
      (fun node after => Reads all stop continues group groups node after ∧ group.leads .otherwiseWord = false ∧
        group.leads .otifWord = false)
      (·.Tolerable group.level groups)
  conditional : ∀ group keyword words groups, 4 * (stream stop group.level groups).length + 2 < bound → group ∈ all →
    group.words = keyword :: words → Ahead all group.level groups →
    (readConditional keyword words group.span (stream stop group.level groups)).Meets
      (Opens all stop continues group groups) (·.Tolerable group.level groups)
  loop : ∀ group keyword words groups, 4 * (stream stop group.level groups).length + 2 < bound → group ∈ all →
    group.words = keyword :: words → Ahead all group.level groups →
    (readLoop keyword words group.span (stream stop group.level groups)).Meets
      (Opens all stop continues group groups) (·.Tolerable group.level groups)
  definition : ∀ group keyword words groups, 4 * (stream stop group.level groups).length + 2 < bound → group ∈ all →
    group.words = keyword :: words → Ahead all group.level groups →
    (readDefinition keyword words group.span (stream stop group.level groups)).Meets
      (Opens all stop continues group groups) (·.Tolerable group.level groups)
  block : ∀ anchor depth groups, 4 * (stream stop depth groups).length + 1 < bound → Ahead all depth groups →
    (readBlock anchor (stream stop depth groups)).Meets
      (fun nodes after => nodes ≠ [] ∧ ReadsBlock all stop continues depth groups nodes after)
      (·.Tolerable depth groups)
  rest : ∀ anchor depth groups, 4 * (stream stop (depth + 1) groups).length < bound → Ahead all (depth + 1) groups →
    (readRest anchor (stream stop (depth + 1) groups)).Meets (ReadsBlock all stop continues depth groups)
      (·.Tolerable (depth + 1) groups)

/-- What is known of all groups: they are sound, and which of them begin with `otif`. -/
structure Known (all : List Group) (continues : Nat → Bool) : Prop where
  sound : ∀ group ∈ all, group.Sound
  continues : ∀ group ∈ all, continues group.span.line = group.leads .otifWord

theorem Known.ahead {continues : Nat → Bool} {depth : Nat} {groups : List Group} (known : Known all continues)
    (ahead : Ahead all depth groups) : ∀ group ∈ groups, group.Sound :=
  fun group member => known.sound group (ahead.known group member)

theorem Follows.mono {stop : Span} {continues : Nat → Bool} {bound smaller : Nat}
    (follows : Follows all stop continues bound) (le : smaller ≤ bound) : Follows all stop continues smaller where
  read group groups small := follows.read group groups (by omega)
  conditional group keyword words groups small := follows.conditional group keyword words groups (by omega)
  loop group keyword words groups small := follows.loop group keyword words groups (by omega)
  definition group keyword words groups small := follows.definition group keyword words groups (by omega)
  block anchor depth groups small := follows.block anchor depth groups (by omega)
  rest anchor depth groups small := follows.rest anchor depth groups (by omega)

section Readers

variable {stop : Span} {continues : Nat → Bool} {group : Group} {groups : List Group}

theorem read_follows (known : Known all continues) (member : group ∈ all) (ahead : Ahead all group.level groups)
    (follows : Follows all stop continues (4 * (stream stop group.level groups).length + 3)) :
    (Statement.read ⟨group.words, group.span⟩ (stream stop group.level groups)).Meets
      (fun node after => Reads all stop continues group groups node after ∧ group.leads .otherwiseWord = false ∧
        group.leads .otifWord = false)
      (·.Tolerable group.level groups) := by
  have sound := known.sound group member
  obtain ⟨first, words, spelled⟩ := List.exists_cons_of_ne_nil sound.spoken
  obtain ⟨here, on⟩ := sound.written spelled
  have led {keyword : Keyword} (kind : first.kind = .keyword keyword) (other : keyword ≠ .otherwiseWord)
      (another : keyword ≠ .otifWord) : group.leads .otherwiseWord = false ∧ group.leads .otifWord = false := by
    simp [leads_eq spelled, Token.isKeyword, kind, other, another]
  have flat {node : Node} (flat : node.Flat all group.span.line) :
      Reads all stop continues group groups node (stream stop group.level groups) := by
    refine ⟨flat.line, [], groups, rfl, rfl, .inl rfl, ?_, ?_⟩
    · rw [flat.inside]
      exact .nil
    · rw [flat.statements, List.forall_mem_singleton]
      exact flat.proper
  rw [spelled, Statement.read]
  dsimp only
  refine Parsed.meets_tell ?_
  split
  · rename_i kind
    refine (follows.conditional group first words groups (by omega) member spelled ahead).weaken_ok ?_
    exact fun node after opens => ⟨opens.reads, led kind nofun nofun⟩
  · rename_i kind
    refine (follows.loop group first words groups (by omega) member spelled ahead).weaken_ok ?_
    exact fun node after opens => ⟨opens.reads, led kind nofun nofun⟩
  · rename_i kind
    refine (follows.definition group first words groups (by omega) member spelled ahead).weaken_ok ?_
    exact fun node after opens => ⟨opens.reads, led kind nofun nofun⟩
  · rename_i kind
    refine Parsed.meets_ofTraced ?_
    cases words with
    | nil => exact meets_pure ⟨flat ⟨here, rfl, fun _ _ => rfl, trivial⟩, led kind nofun nofun⟩
    | cons extra words => exact meets_fail (.inl rfl)
  · rename_i kind
    refine Parsed.meets_ofTraced ((readReturns_meets member spelled kind here on).weaken ?_ fun _ => .inl)
    exact fun node read => ⟨flat read, led kind nofun nofun⟩
  · rename_i kind
    exact absurd kind (Kind.ne_of_isLayout (sound.plain first (spelled ▸ List.mem_cons_self)) rfl)
  · rename_i kind
    exact absurd kind (Kind.ne_of_isLayout (sound.plain first (spelled ▸ List.mem_cons_self)) rfl)
  · have read := readPlain_meets all group.span here (List.forall_mem_cons.mpr ⟨here, on⟩)
    refine Parsed.meets_ofTraced (read.weaken ?_ fun _ => .inl)
    rintro node ⟨read, token, begins, speaks⟩
    cases begins
    refine ⟨flat read, ?_⟩
    simp only [leads_eq spelled, Token.isKeyword, beq_eq_false_iff_ne]
    constructor <;> intro same <;> simpa using speaks _ same

theorem noMore_meets (words : List Token) :
    (Traced.ofExcept (Sentence.noMore words)).Meets (fun _ => True) (·.Tolerable group.level groups) := by
  refine meets_ofExcept (fun _ _ => trivial) fun error failed => ?_
  cases words with
  | nil => cases failed
  | cons extra words =>
    cases failed
    exact .inl rfl

/-- The block of an `otherwise` at the level, whatever statement is made of it. -/
theorem readOtherwise_follows {depth : Nat} (known : Known all continues) (ahead : Ahead all depth groups)
    (follows : Follows all stop continues (4 * (stream stop depth groups).length))
    {keyword : Token} {sentence : Sentence} {after : List Token}
    (led : Sentence.led? .otherwiseWord (stream stop depth groups) = some (keyword, sentence, after))
    {make : List Node → Node} {good : Node → List Token → Prop}
    (made : ∀ block left own rest, block ≠ [] → Lower depth rest →
      Takes all stop depth groups (.otherwise block depth :: Node.items continues .statement (depth + 1) block)
        (Node.statementsAll block) left own rest →
      good (make block) left) :
    ((Parsed.ofTraced (.ofExcept (Sentence.noMore sentence.words))).andThen fun tokens _ _ =>
        (readBlock sentence.stop tokens).map make : Parsed after Node).Meets good (·.Tolerable depth groups) := by
  have shorter := Sentence.led?_shorter led
  obtain ⟨group, rest, rfl, rfl, -, leads, -, rfl⟩ := led?_stream ahead.gradual (known.ahead ahead) led
  refine Parsed.meets_ofTraced_andThen (noMore_meets sentence.words) fun _ _ => Parsed.meets_map ?_
  refine (follows.block sentence.stop group.level rest (by omega) ahead.tail).weaken ?_ fun _ => .later
  rintro block left ⟨some, own, last, takes, lower⟩
  exact made block left (group :: own) last some lower (takes.cons ⟨some, rfl, leads⟩ lower)

/-- The block of an `otherwise` is never taken for one that an `otif` attaches. -/
theorem Takes.not_continued {depth : Nat} {block statements : List Node} {tokens : List Token} {own rest : List Group}
    (known : Known all continues) (ahead : Ahead all depth groups)
    (takes : Takes all stop depth groups (.otherwise block depth :: Node.items continues .statement (depth + 1) block)
      statements tokens own rest) :
    Node.continued continues block = false := by
  have within : ∀ group ∈ own, group ∈ all :=
    fun group member => ahead.known group (takes.split ▸ List.mem_append_left rest member)
  match block, takes.fits with
  | [], _ | _ :: _ :: _, _ => rfl
  | [node], .cons _ (.cons fit _) =>
    obtain ⟨line, -, -, plain⟩ := fit
    rw [Node.continued, line, known.continues _ (within _ (by simp)), plain]

/-- The conditional of an `otif` at the level, whatever statement is made of it. -/
theorem readOtif_follows {depth : Nat} (known : Known all continues) (ahead : Ahead all depth groups)
    (follows : Follows all stop continues (4 * (stream stop depth groups).length))
    {otif : Token} {sentence : Sentence} {after : List Token}
    (led : Sentence.led? .otifWord (stream stop depth groups) = some (otif, sentence, after))
    {make : Node → Node} {good : Node → List Token → Prop}
    (made : ∀ inner left own rest, Node.continued continues [inner] = true → Lower depth rest →
      Takes all stop depth groups (Node.items continues .continuation depth [inner]) (Node.statementsAll [inner]) left
        own rest →
      good (make inner) left) :
    ((readConditional otif sentence.words sentence.stop after).map make).Meets good (·.Tolerable depth groups) := by
  have shorter := Sentence.led?_shorter led
  obtain ⟨group, rest, rfl, rfl, spelled, leads, stopped, rfl⟩ := led?_stream ahead.gradual (known.ahead ahead) led
  have member := ahead.known group List.mem_cons_self
  rw [stopped]
  refine Parsed.meets_map ?_
  have attached := follows.conditional group otif sentence.words rest (by omega) member spelled ahead.tail
  refine attached.weaken ?_ fun _ => .later
  rintro inner left ⟨line, own, last, takes, lower⟩
  refine made inner left (group :: own) last ?_ lower ?_
  · rw [Node.continued, line, known.continues group member, leads]
  · rw [Node.items, Node.items, Node.statementsAll, Node.statementsAll, List.append_nil, List.append_nil]
    exact takes.cons ⟨line, rfl, leads⟩ lower

/-- A condition and the block after it, whatever is read and made of them from there on. -/
theorem readHead_follows (known : Known all continues) (member : group ∈ all) {keyword : Token} {words : List Token}
    (spelled : group.words = keyword :: words) (ahead : Ahead all group.level groups)
    (follows : Follows all stop continues (4 * (stream stop group.level groups).length + 2)) (context : String)
    {next : (tokens : List Token) → Node → List Node → Parsed tokens Node}
    (further : ∀ condition block own rest, condition.WrittenOn group.span.line → block ≠ [] → Lower group.level rest →
      Ahead all group.level rest → Follows all stop continues (4 * (stream stop group.level rest).length) →
      Takes all stop group.level groups (Node.items continues .statement (group.level + 1) block)
        (Node.statementsAll block) (stream stop group.level rest) own rest →
      (next (stream stop group.level rest) condition block).Meets (Opens all stop continues group groups)
        (·.Tolerable group.level rest)) :
    ((Parsed.ofTraced (expect words group.span context)).andThen fun tokens _ condition =>
        (readBlock group.span tokens).andThen fun tokens _ block => next tokens condition block :
          Parsed (stream stop group.level groups) Node).Meets
      (Opens all stop continues group groups) (·.Tolerable group.level groups) := by
  have on := ((known.sound group member).written spelled).2
  refine Parsed.meets_ofTraced_andThen ((expect_meets words group.span context on).weaken_error fun _ => .inl) ?_
  rintro condition ⟨tested, -⟩
  refine Parsed.meets_andThen (follows.block group.span group.level groups (by omega) ahead) ?_
  rintro block tokens within ⟨some, own, rest, takes, lower⟩
  have shorter := within.length_le
  obtain rfl := takes.left
  have onward : Ahead all group.level rest := (takes.split ▸ ahead).remaining (.inr lower)
  have smaller : Follows all stop continues (4 * (stream stop group.level rest).length) := follows.mono (by omega)
  refine (further condition block own rest tested some lower onward smaller takes).weaken_error ?_
  exact fun error tolerable => takes.split ▸ tolerable.append (.inr lower)

theorem readConditional_follows (known : Known all continues) (member : group ∈ all) {keyword : Token}
    {words : List Token} (spelled : group.words = keyword :: words) (ahead : Ahead all group.level groups)
    (follows : Follows all stop continues (4 * (stream stop group.level groups).length + 2)) :
    (readConditional keyword words group.span (stream stop group.level groups)).Meets
      (Opens all stop continues group groups) (·.Tolerable group.level groups) := by
  have here := ((known.sound group member).written spelled).1
  rw [readConditional]
  refine readHead_follows known member spelled ahead follows _ ?_
  intro condition block own rest tested some lower onward smaller takes
  rw [← here] at tested
  split
  · rename_i other sentence after led
    refine Parsed.meets_widen (readOtherwise_follows known onward smaller led ?_)
    intro elseBlock left more last filled under joined
    refine ⟨here, own ++ more, last, .node ⟨tested, some⟩ ?_, under⟩
    rw [Node.inside_otherwise filled (joined.not_continued known onward)]
    exact takes.append joined under
  · split
    · rename_i otif sentence after led
      refine Parsed.meets_widen (readOtif_follows known onward smaller led ?_)
      intro inner left more last through under joined
      refine ⟨here, own ++ more, last, .node ⟨tested, some⟩ ?_, under⟩
      rw [Node.inside_attached through]
      exact takes.append joined under
    · refine Parsed.meets_done ⟨here, own, rest, .node ⟨tested, some⟩ ?_, lower⟩
      simpa [Node.inside, Node.statementsAll] using takes

theorem readLoop_follows (known : Known all continues) (member : group ∈ all) {keyword : Token}
    {words : List Token} (spelled : group.words = keyword :: words) (ahead : Ahead all group.level groups)
    (follows : Follows all stop continues (4 * (stream stop group.level groups).length + 2)) :
    (readLoop keyword words group.span (stream stop group.level groups)).Meets
      (Opens all stop continues group groups) (·.Tolerable group.level groups) := by
  have here := ((known.sound group member).written spelled).1
  rw [readLoop]
  refine readHead_follows known member spelled ahead follows _ ?_
  intro condition body own rest tested some lower onward smaller takes
  rw [← here] at tested
  split
  · rename_i other sentence after led
    refine Parsed.meets_widen (readOtherwise_follows known onward smaller led ?_)
    intro otherwise left more last filled under joined
    refine ⟨here, own ++ more, last, .node ⟨tested, some⟩ ?_, under⟩
    simpa [Node.inside, filled] using takes.append joined under
  · refine Parsed.meets_done ⟨here, own, rest, .node ⟨tested, some⟩ ?_, lower⟩
    simpa [Node.inside, Node.statementsAll] using takes

theorem readDefinition_follows (known : Known all continues) (member : group ∈ all) {keyword : Token}
    {words : List Token} (spelled : group.words = keyword :: words) (ahead : Ahead all group.level groups)
    (follows : Follows all stop continues (4 * (stream stop group.level groups).length + 2)) :
    (readDefinition keyword words group.span (stream stop group.level groups)).Meets
      (Opens all stop continues group groups) (·.Tolerable group.level groups) := by
  rw [readDefinition]
  split
  · rename_i error failed
    exact Parsed.meets_fail (.inl (readHeading_verbal failed))
  · refine Parsed.meets_tell (Parsed.meets_map ?_)
    refine (follows.block group.span group.level groups (by omega) ahead).weaken_ok ?_
    rintro body left ⟨some, own, rest, takes, lower⟩
    exact ⟨((known.sound group member).written spelled).1, own, rest, .node some takes, lower⟩

/-- A block is only found where the next group is one level up. -/
theorem consume_meets (anchor : Span) {depth : Nat} (gradual : Gradual depth groups)
    (sound : ∀ group ∈ groups, group.Sound) :
    (Token.consume .beginIndent anchor (stream stop depth groups)).Meets
      (fun _ after => Lower (depth + 1) groups ∧ ¬ Lower depth groups ∧ after = stream stop (depth + 1) groups)
      (·.isVerbal = true) := by
  have refused {token : Token} (rest : List Token) (kind : token.kind ≠ .beginIndent)
      {good : Token → List Token → Prop} :
      (Token.consume .beginIndent anchor (token :: rest)).Meets good (·.isVerbal = true) := by
    rw [Token.consume, if_neg kind, if_pos rfl]
    exact Parsed.meets_fail rfl
  rcases gradual.standing with ⟨rfl, rfl⟩ | ⟨lower, rfl, below⟩ | ⟨group, rest, rfl, level | up⟩
  · exact refused [] (Kind.noConfusion ·)
  · obtain ⟨span, down⟩ := stream_down stop below
    rw [down]
    exact refused _ (Kind.noConfusion ·)
  · obtain ⟨first, tokens, begun, plain⟩ := stream_begins stop rest (sound group List.mem_cons_self)
    rw [← level, begun]
    exact refused tokens (Kind.ne_of_isLayout plain rfl)
  · rw [stream_up stop rest up, Token.consume, if_pos (by rfl), up]
    refine Parsed.meets_widen (Parsed.meets_done ⟨?_, ?_, rfl⟩)
    · rintro first ⟨⟩
      omega
    · intro lower
      have := lower group rfl
      omega

theorem readBlock_follows (known : Known all continues) (anchor : Span) {depth : Nat} (ahead : Ahead all depth groups)
    (follows : Follows all stop continues (4 * (stream stop depth groups).length + 1)) :
    (readBlock anchor (stream stop depth groups)).Meets
      (fun nodes after => nodes ≠ [] ∧ ReadsBlock all stop continues depth groups nodes after)
      (·.Tolerable depth groups) := by
  rw [readBlock]
  refine Parsed.meets_andThen ((consume_meets anchor ahead.gradual (known.ahead ahead)).weaken_error fun _ => .inl) ?_
  rintro _ tokens within ⟨lower, raised, rfl⟩
  have shorter := within.length_le
  have inside := follows.rest anchor depth groups (by omega) (ahead.inside lower)
  refine inside.weaken ?_ fun _ tolerable => tolerable.anywhere lower depth
  rintro nodes left ⟨own, rest, takes, below⟩
  refine ⟨?_, own, rest, takes, below⟩
  -- Without statements no group would have been taken, but the first is above the level.
  rintro rfl
  cases takes.fits
  exact raised (takes.split ▸ below)

theorem read_indented (span last : Span) (words tokens : List Token) :
    (Statement.read ⟨Token.beginIndent span :: words, last⟩ tokens).Meets (fun _ _ => False)
      (· = .unexpectedIndentation span) := by
  rw [Statement.read]
  exact Parsed.meets_tell (Parsed.meets_fail rfl)

/-- The next sentence is read at the level of its group, and refused where the group is above it. -/
theorem read_next_follows (known : Known all continues) {depth : Nat} {rest : List Group}
    (ahead : Ahead all depth (group :: rest)) (high : depth ≤ group.level)
    (follows : Follows all stop continues (4 * (stream stop depth (group :: rest)).length)) :
    ∃ sentence after, Sentence.next? (stream stop depth (group :: rest)) = some (sentence, after) ∧
      (Statement.read sentence after).Meets
        (fun node left => (Item.statement node depth).Fits group ∧ ∃ own last, Ahead all depth last ∧
          (∀ error : GrammarError, error.Tolerable depth last → error.Tolerable depth (group :: rest)) ∧
          Takes all stop depth rest (node.inside continues depth) node.statements left own last)
        (·.Tolerable depth (group :: rest)) := by
  have member := ahead.known group List.mem_cons_self
  have sound := known.sound group member
  rcases Nat.lt_or_eq_of_le high with above | rfl
  · -- The sentence begins with the step up, and no statement does.
    have up : group.level = depth + 1 := Nat.le_antisymm ahead.gradual.tail.1 above
    refine ⟨_, _, next?_up stop rest sound up, (read_indented _ _ _ _).weaken (fun _ _ => False.elim) ?_⟩
    rintro error rfl
    exact .inr ⟨group.span, rfl, .here rest up⟩
  · have next := next?_level stop rest sound
    have shorter := Sentence.next?_shorter next
    refine ⟨_, _, next, (follows.read group rest (by omega) member ahead.tail).weaken ?_ fun _ => .later⟩
    rintro node left ⟨⟨line, own, last, takes⟩, fits⟩
    refine ⟨⟨line, rfl, fits⟩, own, last, (takes.split ▸ ahead.tail).remaining takes.settled, ?_, takes⟩
    intro error tolerable
    rw [takes.split]
    exact .later (tolerable.append takes.settled)

theorem readRest_follows (known : Known all continues) (anchor : Span) {depth : Nat}
    (ahead : Ahead all (depth + 1) groups)
    (follows : Follows all stop continues (4 * (stream stop (depth + 1) groups).length)) :
    (readRest anchor (stream stop (depth + 1) groups)).Meets (ReadsBlock all stop continues depth groups)
      (·.Tolerable (depth + 1) groups) := by
  rcases ahead.gradual.standing with ⟨-, closed⟩ | ⟨lower, same, below⟩ | ⟨group, rest, rfl, high⟩
  · cases closed
  · -- The block ends here, and what is below it is left as it is.
    cases same
    obtain ⟨span, down⟩ := stream_down stop below
    rw [down, readRest, if_pos (by rfl)]
    exact Parsed.meets_widen (Parsed.meets_done ⟨[], groups, ⟨rfl, rfl, .inl rfl, .nil, List.forall_mem_nil _⟩, below⟩)
  · have sound := known.sound group (ahead.known group List.mem_cons_self)
    obtain ⟨sentence, after, next, reads⟩ := read_next_follows known ahead (by omega) follows
    obtain ⟨token, tokens, begun, inside⟩ := stream_opens stop rest sound high
    have shorter := Sentence.next?_shorter next
    rw [begun] at next ⊢
    rw [readRest, if_neg inside]
    split
    · rename_i nothing
      cases nothing.symm.trans next
    · rename_i found
      cases found.symm.trans next
      refine Parsed.meets_widen (Parsed.meets_andThen reads ?_)
      rintro node remaining within ⟨fits, own, last, further, lift, takes⟩
      have still := within.length_le
      obtain rfl := takes.left
      refine Parsed.meets_map ((follows.rest anchor depth last (by omega) further).weaken ?_ lift)
      rintro nodes left ⟨more, final, joined, lower⟩
      refine ⟨group :: (own ++ more), final, ⟨?_, joined.left, .inr lower, ?_, ?_⟩, lower⟩
      · rw [takes.split, joined.split, List.cons_append, List.append_assoc]
      · exact .cons fits (List.rel_append takes.fits joined.fits)
      · exact List.forall_mem_append.mpr ⟨takes.proper, joined.proper⟩

end Readers

theorem follows {stop : Span} {continues : Nat → Bool} (known : Known all continues) (bound : Nat) :
    Follows all stop continues bound := by
  -- The bound is on the measure by which the readers end, so each may use the others' contracts where it calls them.
  induction bound using Nat.strongRecOn with
  | _ bound ih =>
    constructor
    · exact fun group groups small member ahead => read_follows known member ahead (ih _ small)
    · exact fun group keyword words groups small member spelled ahead =>
        readConditional_follows known member spelled ahead (ih _ small)
    · exact fun group keyword words groups small member spelled ahead =>
        readLoop_follows known member spelled ahead (ih _ small)
    · exact fun group keyword words groups small member spelled ahead =>
        readDefinition_follows known member spelled ahead (ih _ small)
    · exact fun anchor depth groups small ahead => readBlock_follows known anchor ahead (ih _ small)
    · exact fun anchor depth groups small ahead => readRest_follows known anchor ahead (ih _ small)

end Statement

theorem Program.readStatements_follows {all groups : List Group} {continues : Nat → Bool} (stop : Span)
    (known : Statement.Known all continues) (ahead : Group.Ahead all 0 groups) :
    (readStatements (Group.stream stop 0 groups)).Meets
      (fun nodes _ => List.Forall₂ Item.Fits (Node.items continues .statement 0 nodes) groups ∧
        ∀ node ∈ Node.statementsAll nodes, node.Proper all)
      (·.Tolerable 0 groups) := by
  induction size : groups.length using Nat.strongRecOn generalizing groups with
  | _ length ih =>
    rw [readStatements]
    cases groups with
    | nil =>
      split
      · exact Parsed.meets_done ⟨.nil, List.forall_mem_nil _⟩
      · rename_i found
        cases found
    | cons group rest =>
      obtain ⟨sentence, after, next, reads⟩ :=
        Statement.read_next_follows known ahead (Nat.zero_le _) (Statement.follows known _)
      split
      · rename_i nothing
        cases nothing.symm.trans next
      · rename_i found
        cases found.symm.trans next
        refine Parsed.meets_widen (Parsed.meets_andThen reads ?_)
        rintro node remaining within ⟨fits, own, last, further, lift, takes⟩
        obtain rfl := takes.left
        have smaller : last.length < length := by
          rw [← size, takes.split, List.length_cons, List.length_append]
          omega
        refine Parsed.meets_map ((ih last.length smaller further rfl).weaken ?_ lift)
        rintro nodes left ⟨later, proper⟩
        rw [takes.split]
        exact ⟨.cons fits (List.rel_append takes.fits later), List.forall_mem_append.mpr ⟨takes.proper, proper⟩⟩

end Parlance
