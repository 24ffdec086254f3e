import Parlance.Proofs.Node.Heading
import Parlance.Proofs.Node.Proper

/-! Reading what is written out. The lines of a statement, with other lines after them that do not belong to it, are read
as the statement, and the other lines are left. -/
namespace Parlance

namespace Group

variable {stop : Span} {level : Nat} {group : Group} {rest : List Group}

/-- What follows goes on at the level or below, and not with a word that would continue a statement. -/
def Clear (level : Nat) (groups : List Group) : Prop :=
  ∀ group ∈ groups.head?, group.level ≤ level ∧
    (group.level = level → group.leads .otherwiseWord = false ∧ group.leads .otifWord = false)

theorem Clear.lower (clear : Clear level rest) : Lower level rest :=
  fun group first => (clear group first).1

theorem led?_none {keyword : Keyword} (lower : Lower level rest)
    (apart : ∀ group ∈ rest.head?, group.level = level → group.leads keyword = false) :
    Sentence.led? keyword (stream stop level rest) = none := by
  have unled {first : Token} {tokens : List Token} (other : first.isKeyword keyword = false) :
      Sentence.led? keyword (first :: tokens) = none := by
    simp [Sentence.led?, other]
  by_cases same : ∃ group ∈ rest.head?, group.level = level
  · obtain ⟨group, first, rfl⟩ := same
    obtain ⟨more, rfl⟩ := List.head?_eq_some_iff.mp first
    rw [stream_level]
    cases spelled : group.words with
    | nil => exact unled rfl
    | cons word words => exact unled ((leads_eq spelled keyword).symm.trans (apart group rfl rfl))
  · -- A step down comes first, or the end of the input.
    have under : ∀ group ∈ rest.head?, group.level < level := by
      intro group first
      exact Nat.lt_of_le_of_ne (lower group first) fun level => same ⟨group, first, level⟩
    cases level with
    | zero =>
      cases rest with
      | nil => exact unled rfl
      | cons group more => exact absurd (under group rfl) (Nat.not_lt_zero _)
    | succ level =>
      have below : Lower level rest := fun group first => Nat.le_of_lt_succ (under group first)
      obtain ⟨span, down⟩ := stream_down stop below
      rw [down]
      exact unled rfl

theorem led?_some {keyword : Keyword} {token : Token} {words : List Token} (rest : List Group)
    (spelled : group.words = token :: words) (kind : token.kind = .keyword keyword)
    (inner : ∀ token ∈ group.words, token.kind ≠ .newline ∧ token.kind ≠ .eof) :
    Sentence.led? keyword (stream stop group.level (group :: rest)) =
      some (token, ⟨words, group.span⟩, stream stop group.level rest) := by
  rw [spelled] at inner
  have collected := Sentence.collect_until token.span group.span (stream stop group.level rest)
    (List.forall_mem_cons.mp inner).2
  rw [stream_level, spelled, List.cons_append, Sentence.led?, if_pos (by simp [Token.isKeyword, kind]), collected]

end Group

namespace Group

variable {group : Group} {line : Node.Line} {own : List Group}

/-- The group has the line's words, at the line's level. -/
structure Holds (group : Group) (line : Node.Line) : Prop where
  level : group.level = line.level
  words : group.words = Token.ofWords group.span (line.words.map Text.Word.whole)

theorem Holds.sound (holds : group.Holds line) (spoken : group.words ≠ []) : group.Sound where
  spoken := spoken
  plain token member := (Token.ofWords_plain _ _ token (holds.words ▸ member)).1
  spans token member := (Token.ofWords_plain _ _ token (holds.words ▸ member)).2
  text_last := by
    rw [holds.words]
    exact Token.ofWords_text_last _ _

theorem holds_append {first second : List Node.Line} (holds : List.Forall₂ Holds own (first ++ second)) :
    ∃ before after, own = before ++ after ∧ List.Forall₂ Holds before first ∧ List.Forall₂ Holds after second :=
  ⟨_, _, (List.take_append_drop first.length own).symm, List.forall₂_take_append _ _ _ holds,
    List.forall₂_drop_append _ _ _ holds⟩

theorem Holds.heads {node : Node} {level : Nat} (sayable : node.Sayable) (keyword : Keyword)
    (single : keyword ≠ .weMeanWord) (holds : group.Holds ⟨level, node.heading keyword.spelling⟩) :
    group.Sound ∧ node.Heads keyword group.words := by
  obtain ⟨tokens, writes, heads⟩ := sayable.writes single
  have moved := heads.moved group.span
  rw [← writes.ofWords, ← holds.words] at moved
  exact ⟨holds.sound moved.ne_nil, moved⟩

theorem Holds.otherwise {level : Nat} (holds : group.Holds ⟨level, ["otherwise"]⟩) :
    ∃ token, group.words = [token] ∧ token.kind = .keyword .otherwiseWord :=
  ⟨_, holds.words.trans ((Token.Writes.nil.keyword .otherwiseWord).ofWords group.span), rfl⟩

end Group

namespace Statement

open Traced Expression

variable {words : List Token} {node : Node}

/-- What is read as a statement does not begin with a word that continues one. -/
theorem read_unled {group : Group} (sound : group.Sound) {tokens : List Token}
    (read : (Statement.read ⟨group.words, group.span⟩ tokens).result = .ok node) :
    group.leads .otherwiseWord = false ∧ group.leads .otifWord = false := by
  obtain ⟨first, rest, spelled⟩ := List.exists_cons_of_ne_nil sound.spoken
  obtain ⟨here, on⟩ := sound.written spelled
  have refused {keyword : Keyword} (kind : first.kind = .keyword keyword)
      (other : keyword = .otherwiseWord ∨ keyword = .otifWord) : False := by
    have plain : (readPlain first (first :: rest) group.span).result = .ok node := by
      rw [spelled, Statement.read] at read
      dsimp only at read
      rw [kind] at read
      rcases other with rfl | rfl <;> exact read
    obtain ⟨-, token, begins, speaks⟩ :=
      (readPlain_meets [] group.span here (List.forall_mem_cons.mpr ⟨here, on⟩)).ok node plain
    cases begins
    rcases other with rfl | rfl <;> simpa using speaks _ kind
  simp only [Group.leads_eq spelled, Token.isKeyword, beq_eq_false_iff_ne]
  exact ⟨fun kind => refused kind (.inl rfl), fun kind => refused kind (.inr rfl)⟩

/-! ### Blocks -/

open Parlance.Group

variable {stop : Span} {level : Nat} {own rest : List Group}

/-- What begins here begins at the level, with a statement of its own. -/
def Begun (level : Nat) (own : List Group) : Prop :=
  ∀ first ∈ own.head?, first.level = level ∧ first.leads .otherwiseWord = false ∧ first.leads .otifWord = false

theorem Begun.clear (begun : Begun level own) (under : ∀ group ∈ rest.head?, group.level < level) :
    Clear level (own ++ rest) := by
  cases own with
  | nil =>
    intro group first
    have below := under group first
    exact ⟨below.le, fun same => absurd same below.ne⟩
  | cons group own =>
    rintro _ ⟨⟩
    obtain ⟨same, unled⟩ := begun group rfl
    exact ⟨same.le, fun _ => unled⟩

theorem readBlock_printed {good : List Node → Prop} (anchor : Span) (some : own ≠ []) (begun : Begun (level + 1) own)
    {after : List Token} (inside : (readRest anchor (stream stop (level + 1) (own ++ rest))).Succeeds good after) :
    (readBlock anchor (stream stop level (own ++ rest))).Succeeds good after := by
  obtain ⟨first, others, rfl⟩ := List.exists_cons_of_ne_nil some
  have up := (begun first rfl).1
  rw [List.cons_append] at inside ⊢
  rw [stream_up stop (others ++ rest) up, up, readBlock]
  have consumed : (Token.consume .beginIndent anchor
      (Token.beginIndent first.span :: stream stop (level + 1) (first :: (others ++ rest)))).Succeeds (fun _ => True)
      (stream stop (level + 1) (first :: (others ++ rest))) := by
    rw [Token.consume, if_pos (by rfl)]
    exact Parsed.succeeds_widen (Parsed.succeeds_done trivial)
  exact Parsed.succeeds_andThen consumed fun _ _ _ => inside

theorem readRest_ended (anchor : Span) (lower : Lower level rest) :
    (readRest anchor (stream stop (level + 1) rest)).Succeeds (Node.unlinedAll · = []) (stream stop level rest) := by
  obtain ⟨span, down⟩ := stream_down stop lower
  rw [down, readRest, if_pos (by rfl)]
  exact Parsed.succeeds_widen (Parsed.succeeds_done rfl)

theorem readRest_further {first : Group} {others : List Group} {nodes : List Node} (anchor : Span) (sound : first.Sound)
    (same : first.level = level + 1) {middle after : List Token}
    (here : (Statement.read ⟨first.words, first.span⟩ (stream stop (level + 1) others)).Succeeds
      (·.unlined = node.unlined) middle)
    (later : (readRest anchor middle).Succeeds (Node.unlinedAll · = Node.unlinedAll nodes) after) :
    (readRest anchor (stream stop (level + 1) (first :: others))).Succeeds
      (Node.unlinedAll · = Node.unlinedAll (node :: nodes)) after := by
  obtain ⟨token, tokens, begins, plain⟩ := stream_begins stop others sound
  have next := next?_level stop others sound
  rw [same] at begins next
  rw [begins] at next ⊢
  rw [readRest, if_neg (Kind.ne_of_isLayout plain rfl)]
  split
  · rename_i nothing
    cases nothing.symm.trans next
  · rename_i found
    cases found.symm.trans next
    refine Parsed.succeeds_widen (Parsed.succeeds_andThen here fun read _ first => Parsed.succeeds_map ?_)
    obtain ⟨others, reached, given, left⟩ := later
    exact ⟨others, reached, by simp only [Node.unlinedAll, first, given], left⟩

/-- The groups are a block of the nodes. -/
def Block (stop : Span) (level : Nat) (own rest : List Group) (nodes : List Node) : Prop :=
  ∀ anchor, (readBlock anchor (stream stop level (own ++ rest))).Succeeds (Node.unlinedAll · = Node.unlinedAll nodes)
    (stream stop level rest)

/-- The groups are an `otherwise` and its block, or there are none. -/
inductive Otherwise (stop : Span) (level : Nat) (rest : List Group) : List Group → List Node → Prop
  | absent (clear : Clear level rest) : Otherwise stop level rest [] []
  | present {first : Group} {others : List Group} {token : Token} {nodes : List Node} (same : first.level = level)
      (sound : first.Sound) (spelled : first.words = [token]) (kind : token.kind = .keyword .otherwiseWord)
      (block : Block stop level others rest nodes) : Otherwise stop level rest (first :: others) nodes

section Readers

variable {more : List Group} {condition : Node} {block : List Node} {anchor : Span}

theorem readHead_printed {context : String} {good : Node → Prop} {after : List Token}
    {next : (tokens : List Token) → Node → List Node → Parsed tokens Node} (means : Means words condition.unlined)
    (taken : Block stop level own rest block)
    (further : ∀ read nodes, read.unlined = condition.unlined → Node.unlinedAll nodes = Node.unlinedAll block →
      (next (stream stop level rest) read nodes).Succeeds good after) :
    ((Parsed.ofTraced (expect words anchor context)).andThen fun tokens _ read =>
        (readBlock anchor tokens).andThen fun tokens _ nodes => next tokens read nodes :
          Parsed (stream stop level (own ++ rest)) Node).Succeeds good after := by
  refine Parsed.succeeds_andThen (Parsed.succeeds_ofTraced (expect_complete means anchor context)) fun read _ same => ?_
  exact Parsed.succeeds_andThen (taken anchor) fun nodes _ given => further read nodes same given

theorem readOtherwise_printed {sentence : Sentence} {left : List Token} {token : Token} {nodes : List Node}
    {make : List Node → Node} {good : Node → Prop} (other : Otherwise stop level rest more nodes)
    (led : Sentence.led? .otherwiseWord (stream stop level (more ++ rest)) = some (token, sentence, left))
    (made : ∀ read, Node.unlinedAll read = Node.unlinedAll nodes → good (make read)) :
    ((Parsed.ofTraced (.ofExcept (Sentence.noMore sentence.words))).andThen fun tokens _ _ =>
        (readBlock sentence.stop tokens).map make : Parsed left Node).Succeeds good (stream stop level rest) := by
  cases other with
  | absent clear =>
    rw [List.nil_append, led?_none clear.lower fun group first same => ((clear group first).2 same).1] at led
    cases led
  | @present first others token nodes same sound spelled kind taken =>
    subst same
    rw [List.cons_append, led?_some _ spelled kind sound.inner] at led
    cases led
    have ended : (Traced.ofExcept (Sentence.noMore [])).Succeeds fun _ => True := ⟨(), rfl, trivial⟩
    refine Parsed.succeeds_andThen (Parsed.succeeds_ofTraced ended) fun _ _ _ => Parsed.succeeds_map ?_
    obtain ⟨read, reached, given, left⟩ := taken first.span
    exact ⟨read, reached, made read given, left⟩

theorem Otherwise.unled {nodes : List Node} (other : Otherwise stop level rest more nodes)
    (unled : Sentence.led? .otherwiseWord (stream stop level (more ++ rest)) = none) :
    more = [] ∧ nodes = [] ∧ Clear level rest := by
  cases other with
  | absent clear => exact ⟨rfl, rfl, clear⟩
  | present same sound spelled kind =>
    subst same
    rw [List.cons_append, led?_some _ spelled kind sound.inner] at unled
    cases unled

theorem Otherwise.lower {nodes : List Node} (other : Otherwise stop level rest more nodes) :
    Lower level (more ++ rest) := by
  cases other with
  | absent clear => exact clear.lower
  | present same =>
    rintro _ ⟨⟩
    exact same.le

theorem readLoop_printed {keyword : Token} {nodes : List Node} (means : Means words condition.unlined)
    (taken : Block stop level own (more ++ rest) block) (other : Otherwise stop level rest more nodes) (line : Nat) :
    (readLoop keyword words anchor (stream stop level (own ++ (more ++ rest)))).Succeeds
      (·.unlined = (Node.loop condition block nodes line).unlined) (stream stop level rest) := by
  rw [readLoop]
  refine readHead_printed means taken fun read body same given => ?_
  split
  · rename_i led
    refine Parsed.succeeds_widen (readOtherwise_printed other led fun otherwise last => ?_)
    simp only [Node.unlined, same, given, last]
  · rename_i unled
    obtain ⟨rfl, rfl, -⟩ := other.unled unled
    refine Parsed.succeeds_done ?_
    simp only [Node.unlined, same, given]

theorem readConditional_printed {keyword : Token} {nodes : List Node} (means : Means words condition.unlined)
    (taken : Block stop level own (more ++ rest) block) (other : Otherwise stop level rest more nodes) (line : Nat) :
    (readConditional keyword words anchor (stream stop level (own ++ (more ++ rest)))).Succeeds
      (·.unlined = (Node.conditional condition block nodes line).unlined) (stream stop level rest) := by
  rw [readConditional]
  refine readHead_printed means taken fun read thenBlock same given => ?_
  split
  · rename_i led
    refine Parsed.succeeds_widen (readOtherwise_printed other led fun elseBlock last => ?_)
    simp only [Node.unlined, same, given, last]
  · rename_i unled
    obtain ⟨rfl, rfl, clear⟩ := other.unled unled
    split
    · rename_i led
      rw [List.nil_append, led?_none clear.lower fun group first same => ((clear group first).2 same).2] at led
      cases led
    · refine Parsed.succeeds_done ?_
      simp only [Node.unlined, same, given]

theorem readConditional_attached {keyword token : Token} {first : Group} {further : List Token} {inner : Node}
    (means : Means words condition.unlined) (taken : Block stop first.level own (first :: (more ++ rest)) block)
    (sound : first.Sound) (spelled : first.words = token :: further) (kind : token.kind = .keyword .otifWord)
    (attached : (readConditional token further first.span (stream stop first.level (more ++ rest))).Succeeds
      (·.unlined = inner.unlined) (stream stop first.level rest)) (line : Nat) :
    (readConditional keyword words anchor (stream stop first.level (own ++ first :: (more ++ rest)))).Succeeds
      (·.unlined = (Node.conditional condition block [inner] line).unlined) (stream stop first.level rest) := by
  rw [readConditional]
  refine readHead_printed means taken fun read thenBlock same given => ?_
  have unled : Sentence.led? .otherwiseWord (stream stop first.level (first :: (more ++ rest))) = none := by
    refine led?_none (fun group begins => by cases begins; exact Nat.le_refl _) fun group begins _ => ?_
    cases begins
    simp [leads_eq spelled, Token.isKeyword, kind]
  split
  · rename_i led
    cases unled.symm.trans led
  · split
    · rename_i led
      rw [led?_some _ spelled kind sound.inner] at led
      cases led
      obtain ⟨node, reached, equal, left⟩ := attached
      refine Parsed.succeeds_widen (Parsed.succeeds_map ⟨node, reached, ?_, left⟩)
      simp only [Node.unlined, Node.unlinedAll, same, given, equal]
    · rename_i none
      rw [led?_some _ spelled kind sound.inner] at none
      cases none

theorem readDefinition_printed {keyword found means : Token} {before between : List Token} {name param : String}
    (isOf : found.kind = .keyword .ofWord) (isMeans : means.kind = .keyword .weMeanWord)
    (named : Token.Names before name) (given : Token.Names between param) (taken : Block stop level own rest block)
    (line : Nat) :
    (readDefinition keyword (before ++ found :: (between ++ [means])) anchor (stream stop level (own ++ rest))).Succeeds
      (·.unlined = (Node.definition name [param] block 0 line).unlined) (stream stop level rest) := by
  rw [readDefinition, readHeading_complete keyword isOf isMeans named given]
  refine Parsed.succeeds_tell (Parsed.succeeds_map ?_)
  obtain ⟨body, reached, same, left⟩ := taken anchor
  exact ⟨body, reached, by simp only [Node.unlined, same], left⟩

end Readers

end Statement

/-! ### Programs -/

def Node.lines (keyword : Keyword) (level : Nat) (node : Node) : List Node.Line :=
  ⟨level, node.heading keyword.spelling⟩ :: node.blockLines level

/-- A statement that can be written out: one that can be said, with the blocks that it must have. -/
structure Node.Printable (node : Node) : Prop where
  sayable : node.Sayable
  blocks : ∀ block ∈ node.blocks, block ≠ []

namespace Statement

open Parlance.Group

variable {stop : Span} {level : Nat} {own rest : List Group} {node : Node} {nodes : List Node}

/-- The statement is read from the first of its groups, and the others are read with it. -/
inductive ReadsBack (stop : Span) (level : Nat) (rest : List Group) (node : Node) : List Group → Prop
  | intro {first : Group} {others : List Group} (same : first.level = level) (sound : first.Sound)
      (read : (Statement.read ⟨first.words, first.span⟩ (stream stop level (others ++ rest))).Succeeds
        (·.unlined = node.unlined) (stream stop level rest)) :
      ReadsBack stop level rest node (first :: others)

/-- The groups of a conditional, of which the first is led by the keyword. -/
inductive TestsBack (stop : Span) (level : Nat) (rest : List Group) (keyword : Keyword) (node : Node) :
    List Group → Prop
  | intro {first : Group} {others : List Group} {token : Token} {words : List Token} (same : first.level = level)
      (sound : first.Sound) (spelled : first.words = token :: words) (kind : token.kind = .keyword keyword)
      (read : (readConditional token words first.span (stream stop level (others ++ rest))).Succeeds
        (·.unlined = node.unlined) (stream stop level rest)) :
      TestsBack stop level rest keyword node (first :: others)

/-- The groups of a block's lines are read as what the block holds. -/
structure RestsBack (stop : Span) (level : Nat) (rest : List Group) (nodes : List Node) (own : List Group) : Prop where
  filled : nodes ≠ [] → own ≠ []
  begun : Begun (level + 1) own
  read : ∀ anchor, (readRest anchor (stream stop (level + 1) (own ++ rest))).Succeeds
    (Node.unlinedAll · = Node.unlinedAll nodes) (stream stop level rest)

theorem ReadsBack.flat (sayable : node.Sayable) (flat : node.blocks = [])
    (holds : List.Forall₂ Holds own [⟨level, node.heading Keyword.ifWord.spelling⟩]) :
    ReadsBack stop level rest node own := by
  obtain ⟨first, others, here, none, rfl⟩ := List.forall₂_cons_right_iff.mp holds
  cases none
  obtain ⟨sound, heads⟩ := here.heads sayable .ifWord nofun
  exact .intro here.level sound (read_heads heads flat _ _)

theorem ReadsBack.begun (back : ReadsBack stop level rest node own) : own ≠ [] ∧ Begun level own := by
  cases back with
  | intro same sound read =>
    refine ⟨List.cons_ne_nil _ _, ?_⟩
    rintro _ ⟨⟩
    obtain ⟨node, reached, -⟩ := read
    exact ⟨same, read_unled sound reached⟩

theorem TestsBack.reads (back : TestsBack stop level rest .ifWord node own) : ReadsBack stop level rest node own := by
  cases back with
  | intro same sound spelled kind read =>
    refine .intro same sound ?_
    rw [spelled, Statement.read]
    dsimp only
    rw [kind]
    exact Parsed.succeeds_tell read

theorem RestsBack.block (back : RestsBack stop level rest nodes own) (some : nodes ≠ []) :
    Block stop level own rest nodes :=
  fun anchor => readBlock_printed anchor (back.filled some) back.begun (back.read anchor)

theorem RestsBack.nil (lower : Lower level rest) : RestsBack stop level rest [] [] :=
  ⟨fun some => absurd rfl some, nofun, fun anchor => readRest_ended anchor lower⟩

theorem RestsBack.cons {more : List Group} (here : ReadsBack stop (level + 1) (more ++ rest) node own)
    (later : RestsBack stop level rest nodes more) : RestsBack stop level rest (node :: nodes) (own ++ more) := by
  have begun := here.begun.2
  cases here with
  | intro same sound read =>
    refine ⟨fun _ => List.cons_ne_nil _ _, ?_, fun anchor => ?_⟩
    · rintro _ ⟨⟩
      exact begun _ rfl
    · rw [List.append_assoc, List.cons_append]
      exact readRest_further anchor sound same read (later.read anchor)

theorem Otherwise.printed (clear : Clear level rest)
    (inside : ∀ {own : List Group}, List.Forall₂ Holds own (Node.linesAll (level + 1) nodes) →
      RestsBack stop level rest nodes own)
    (holds : List.Forall₂ Holds own
      (if nodes.isEmpty then [] else ⟨level, ["otherwise"]⟩ :: Node.linesAll (level + 1) nodes)) :
    Otherwise stop level rest own nodes := by
  cases nodes with
  | nil =>
    cases holds
    exact .absent clear
  | cons node nodes =>
    obtain ⟨first, others, here, further, rfl⟩ := List.forall₂_cons_right_iff.mp holds
    obtain ⟨token, spelled, kind⟩ := here.otherwise
    exact .present here.level (here.sound (by simp [spelled])) spelled kind ((inside further).block nofun)

/-- The block is just another conditional. -/
def Attached (nodes : List Node) : Prop :=
  ∃ condition thenBlock elseBlock line, nodes = [.conditional condition thenBlock elseBlock line]

/-- Only a conditional alone is written with `otif`. -/
theorem linesElse_other (level : Nat) (apart : ¬ Attached nodes) :
    Node.linesElse level nodes =
      if nodes.isEmpty then [] else ⟨level, ["otherwise"]⟩ :: Node.linesAll (level + 1) nodes := by
  cases nodes with
  | nil => rfl
  | cons node rest =>
    have other : (rest.isEmpty && node.isConditional) = false := by
      rw [Bool.and_eq_false_iff]
      by_contra both
      simp only [not_or, Bool.not_eq_false, List.isEmpty_iff] at both
      obtain ⟨rfl, conditional⟩ := both
      cases node with
      | conditional condition thenBlock elseBlock line => exact apart ⟨condition, thenBlock, elseBlock, line, rfl⟩
      | call | identifier | literal | assignment | loop | breaks | definition | returns => cases conditional
    rw [Node.linesElse, other]
    rfl

-- What follows the lines is left open, and a conditional is led by `if` or by `otif`: it is written with the latter where
-- it is all that another one does otherwise.
mutual

theorem printed_node : (node : Node) → (∀ statement ∈ node.statements, statement.Printable) →
    {level : Nat} → {own rest : List Group} → List.Forall₂ Holds own (node.lines .ifWord level) → Clear level rest →
    ReadsBack stop level rest node own
  | .call _ _ _, printable, _, _, _, holds, _ => .flat (printable _ List.mem_cons_self).sayable rfl holds
  | .identifier _ _, printable, _, _, _, holds, _ => .flat (printable _ List.mem_cons_self).sayable rfl holds
  | .literal _ _, printable, _, _, _, holds, _ => .flat (printable _ List.mem_cons_self).sayable rfl holds
  | .breaks _, printable, _, _, _, holds, _ => .flat (printable _ List.mem_cons_self).sayable rfl holds
  | .assignment _ _ _, printable, _, _, _, holds, _ => .flat (printable _ List.mem_cons_self).sayable rfl holds
  | .returns _ _, printable, _, _, _, holds, _ => .flat (printable _ List.mem_cons_self).sayable rfl holds
  | .conditional condition thenBlock elseBlock line, printable, _, _, _, holds, clear =>
    (printed_conditional condition thenBlock elseBlock line printable .ifWord nofun holds clear).reads
  | .loop condition body otherwise line, printable, level, own, rest, holds, clear => by
    obtain ⟨here, inside⟩ := List.forall_mem_cons.mp printable
    obtain ⟨inBody, inOther⟩ := List.forall_mem_append.mp inside
    obtain ⟨first, others, head, further, rfl⟩ := List.forall₂_cons_right_iff.mp holds
    obtain ⟨own, more, rfl, taken, other⟩ := holds_append further
    obtain ⟨sound, token, words, spelled, kind, means⟩ := head.heads here.sayable .ifWord nofun
    have ended := Otherwise.printed clear (fun holds => printed_rest otherwise inOther holds clear.lower) other
    have block := (printed_rest body inBody taken ended.lower).block (here.blocks body List.mem_cons_self)
    refine .intro head.level sound ?_
    rw [spelled, Statement.read, List.append_assoc]
    dsimp only
    rw [kind]
    exact Parsed.succeeds_tell (readLoop_printed means block ended line)
  | .definition name params body site line, printable, level, own, rest, holds, clear => by
    obtain ⟨here, inside⟩ := List.forall_mem_cons.mp printable
    obtain ⟨first, others, head, further, rfl⟩ := List.forall₂_cons_right_iff.mp holds
    obtain ⟨sound, token, before, found, between, means, param, spelled, kind, isOf, isMeans, rfl, named, given⟩ :=
      head.heads here.sayable .ifWord nofun
    obtain ⟨-, -, rfl⟩ := here.sayable
    have block := (printed_rest body inside further clear.lower).block (here.blocks body List.mem_cons_self)
    refine .intro head.level sound ?_
    rw [spelled, Statement.read]
    dsimp only
    rw [kind]
    exact Parsed.succeeds_tell (readDefinition_printed isOf isMeans named given block line)
termination_by node => (sizeOf node, 1)
decreasing_by
  all_goals simp_wf
  all_goals omega

theorem printed_conditional : (condition : Node) → (thenBlock elseBlock : List Node) → (line : Nat) →
    (∀ statement ∈ (Node.conditional condition thenBlock elseBlock line).statements, statement.Printable) →
    (keyword : Keyword) → keyword ≠ .weMeanWord → {level : Nat} → {own rest : List Group} →
    List.Forall₂ Holds own ((Node.conditional condition thenBlock elseBlock line).lines keyword level) →
    Clear level rest → TestsBack stop level rest keyword (.conditional condition thenBlock elseBlock line) own
  | condition, thenBlock, elseBlock, line, printable, keyword, single, level, own, rest, holds, clear => by
    obtain ⟨here, inside⟩ := List.forall_mem_cons.mp printable
    obtain ⟨inThen, inElse⟩ := List.forall_mem_append.mp inside
    obtain ⟨first, others, head, further, rfl⟩ := List.forall₂_cons_right_iff.mp holds
    obtain ⟨own, more, rfl, taken, other⟩ := holds_append further
    obtain ⟨sound, token, words, spelled, kind, means⟩ := head.heads here.sayable keyword single
    have filled := here.blocks thenBlock List.mem_cons_self
    by_cases attached : Attached elseBlock
    · obtain ⟨test, inner, last, number, alone⟩ := attached
      have smaller : 1 + sizeOf test + sizeOf inner + sizeOf last + number < sizeOf elseBlock := by
        simp only [alone, List.cons.sizeOf_spec, Node.conditional.sizeOf_spec, sizeOf_nat]
        omega
      rw [alone] at inElse
      have sayable : ∀ statement ∈ (Node.conditional test inner last number).statements, statement.Printable :=
        (List.forall_mem_append.mp inElse).1
      rw [alone, Node.linesElse, if_pos (by rfl)] at other
      cases printed_conditional test inner last number sayable .otifWord nofun other clear with
      | @intro next others _ _ same soundNext spelledNext kindNext read =>
        have lower : Lower level (next :: (others ++ rest)) := by
          rintro _ ⟨⟩
          exact same.le
        have block := (printed_rest thenBlock inThen taken lower).block filled
        refine .intro head.level sound spelled kind ?_
        subst same alone
        rw [List.append_assoc, List.cons_append]
        exact readConditional_attached means block soundNext spelledNext kindNext read line
    · rw [linesElse_other level attached] at other
      have ended := Otherwise.printed clear (fun holds => printed_rest elseBlock inElse holds clear.lower) other
      have block := (printed_rest thenBlock inThen taken ended.lower).block filled
      refine .intro head.level sound spelled kind ?_
      rw [List.append_assoc]
      exact readConditional_printed means block ended line
termination_by condition thenBlock elseBlock line => (sizeOf (Node.conditional condition thenBlock elseBlock line), 0)
decreasing_by
  all_goals simp_wf
  all_goals omega

theorem printed_rest : (nodes : List Node) → (∀ statement ∈ Node.statementsAll nodes, statement.Printable) →
    {level : Nat} → {own rest : List Group} → List.Forall₂ Holds own (Node.linesAll (level + 1) nodes) →
    Lower level rest → RestsBack stop level rest nodes own
  | [], _, level, own, rest, holds, lower => by
    cases holds
    exact .nil lower
  | node :: nodes, printable, level, own, rest, holds, lower => by
    obtain ⟨here, later⟩ := List.forall_mem_append.mp printable
    obtain ⟨own, more, rfl, first, further⟩ := holds_append holds
    have inside := printed_rest nodes later further lower
    have clear := inside.begun.clear fun group first => Nat.lt_succ_of_le (lower group first)
    exact .cons (printed_node node here first clear) inside
termination_by nodes => (sizeOf nodes, 0)
decreasing_by
  all_goals simp_wf
  all_goals omega

end

end Statement

namespace Program

open Parlance.Group Statement

theorem readStatements_printed (stop : Span) {program : List Node}
    (printable : ∀ statement ∈ Node.statementsAll program, statement.Printable) {own : List Group}
    (holds : List.Forall₂ Holds own (Node.linesAll 0 program)) :
    Begun 0 own ∧ (readStatements (stream stop 0 own)).Succeeds (Node.unlinedAll · = Node.unlinedAll program)
      (stream stop 0 []) := by
  induction program generalizing own with
  | nil =>
    cases holds
    refine ⟨nofun, ?_⟩
    rw [readStatements]
    exact Parsed.succeeds_done rfl
  | cons node program ih =>
    obtain ⟨here, later⟩ := List.forall_mem_append.mp printable
    obtain ⟨own, more, rfl, first, further⟩ := holds_append holds
    obtain ⟨begun, inside⟩ := ih later further
    have clear : Clear 0 (more ++ []) := begun.clear nofun
    rw [List.append_nil] at clear
    have back : ReadsBack stop 0 more node own := printed_node node here first clear
    have starts := back.begun.2
    cases back with
    | @intro group others same sound read =>
      have next := next?_level stop (others ++ more) sound
      rw [same] at next
      refine ⟨?_, ?_⟩
      · rintro _ ⟨⟩
        exact starts group rfl
      · rw [List.cons_append, readStatements]
        split
        · rename_i nothing
          cases nothing.symm.trans next
        · rename_i found
          cases found.symm.trans next
          refine Parsed.succeeds_widen (Parsed.succeeds_andThen read fun read _ first => Parsed.succeeds_map ?_)
          obtain ⟨nodes, reached, given, left⟩ := inside
          exact ⟨nodes, reached, by simp only [Node.unlinedAll, first, given], left⟩

theorem read_printed (stop : Span) {program : List Node}
    (printable : ∀ statement ∈ Node.statementsAll program, statement.Printable) {own : List Group}
    (holds : List.Forall₂ Holds own (Node.linesAll 0 program)) :
    (read (stream stop 0 own)).Succeeds (Node.unlinedAll · = Node.unlinedAll program) (stream stop 0 []) := by
  refine Parsed.succeeds_andThen (readStatements_printed stop printable holds).2 fun nodes _ same => ?_
  exact Parsed.succeeds_tell (Parsed.succeeds_done same)

end Program
end Parlance
