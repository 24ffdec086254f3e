import Parlance.Proofs.Node.WellFormed
import Parlance.Proofs.Text.Unbroken

/-! The texts that a program can give and the names of the procedures that it can define. They are made of the words of its
lines, with single spaces between, so that none of them goes on to another line. -/
namespace Parlance

namespace Node

/-- The texts in the node and the names of the procedures that it defines are fit, however deep. -/
inductive Utters (fit : String → Prop) : Node → Prop
  | call {callee : Node} {arguments : List Node} (line : Nat) (head : Utters fit callee)
      (given : ∀ argument ∈ arguments, Utters fit argument) : Utters fit (.call callee arguments line)
  | identifier (name : String) (line : Nat) : Utters fit (.identifier name line)
  | literal {value : Literal} (line : Nat) (fits : ∀ text, value = .text text → fit text) : Utters fit (.literal value line)
  | assignment (target : Node) {value : Node} (line : Nat) (given : Utters fit value) :
      Utters fit (.assignment target value line)
  | conditional {condition : Node} {thenBlock elseBlock : List Node} (line : Nat) (test : Utters fit condition)
      (taken : ∀ node ∈ thenBlock, Utters fit node) (otherwise : ∀ node ∈ elseBlock, Utters fit node) :
      Utters fit (.conditional condition thenBlock elseBlock line)
  | loop {condition : Node} {body otherwise : List Node} (line : Nat) (test : Utters fit condition)
      (inside : ∀ node ∈ body, Utters fit node) (after : ∀ node ∈ otherwise, Utters fit node) :
      Utters fit (.loop condition body otherwise line)
  | breaks (line : Nat) : Utters fit (.breaks line)
  | definition {name : String} (params : List String) {body : List Node} (site line : Nat) (fits : fit name)
      (inside : ∀ node ∈ body, Utters fit node) : Utters fit (.definition name params body site line)
  | returns {value : Node} (line : Nat) (given : Utters fit value) : Utters fit (.returns value line)

variable {fit : String → Prop}

theorem Utters.nothing (line : Nat) : Utters fit (.literal .nothing line) := by
  refine .literal line fun text other => ?_
  cases other

theorem Utters.number {node : Node} (utters : node.Utters fit) (site : Nat) : (node.number site).1.Utters fit := by
  induction utters generalizing site with
  | call line head given ihHead ihGiven => exact .call line (ihHead _) (forall_numberAll ihGiven _)
  | identifier name line => exact .identifier name line
  | literal line fits => exact .literal line fits
  | assignment target line given ih => exact .assignment _ line (ih _)
  | conditional line test taken otherwise ihTest ihTaken ihOtherwise =>
    exact .conditional line (ihTest _) (forall_numberAll ihTaken _) (forall_numberAll ihOtherwise _)
  | loop line test inside after ihTest ihInside ihAfter =>
    exact .loop line (ihTest _) (forall_numberAll ihInside _) (forall_numberAll ihAfter _)
  | breaks line => exact .breaks line
  | definition params own line fits inside ih => exact .definition params _ line fits (forall_numberAll ih _)
  | returns line given ih => exact .returns line (ih _)

theorem call_of_unlined {node callee : Node} {arguments : List Node} (same : node.unlined = .call callee arguments 0) :
    ∃ head given line, node = .call head given line ∧ head.unlined = callee ∧
      ∀ argument ∈ given, argument.unlined ∈ arguments := by
  cases node with
  | call head given line =>
    obtain ⟨first, rest, -⟩ := Node.call.inj same
    refine ⟨head, given, line, rfl, first, ?_⟩
    rw [← rest, unlinedAll_eq_map]
    exact fun argument member => List.mem_map_of_mem member
  | identifier | literal | assignment | conditional | loop | breaks | definition | returns => cases same

end Node

namespace Token

/-- The texts among the words are fit, and so is what plain words are taken for as a name. -/
structure TextsFit (fit : String → Prop) (words : List Token) : Prop where
  texts : ∀ token ∈ words, token.kind = .text → fit token.lexeme
  names : NamesFit fit words

theorem TextsFit.part {fit : String → Prop} {words part : List Token} (fits : TextsFit fit words)
    (inside : part <:+: words) : TextsFit fit part :=
  ⟨fun token member => fits.texts token (inside.subset member), fits.names.part inside⟩

end Token

/-! ### Expressions -/

namespace Expression

open Token Traced

variable {fit : String → Prop} {words : List Token} {token : Token} {flat : Node}

theorem Atom.utters (atom : Atom token flat) (fits : token.kind = .text → fit token.lexeme) {node : Node}
    (same : node.unlined = flat) : node.Utters fit := by
  cases atom with
  | number | yes | no =>
    cases node <;> cases same
    refine .literal _ fun text other => ?_
    cases other
  | text kind =>
    cases node <;> cases same
    refine .literal _ fun text spelled => ?_
    cases spelled
    exact fits kind

theorem Head.utters (head : Head token flat) (fits : token.kind = .text → fit token.lexeme) {node : Node}
    (same : node.unlined = flat) : node.Utters fit := by
  cases head with
  | word kind =>
    cases node <;> cases same
    exact .identifier _ _
  | atom atom => exact atom.utters fits same

theorem Means.utters (means : Means words flat) (fits : ∀ token ∈ words, token.kind = .text → fit token.lexeme) :
    ∀ {node : Node}, node.unlined = flat → node.Utters fit := by
  induction means with
  | atom atom => exact atom.utters (fits _ List.mem_cons_self)
  | name led names free =>
    intro node same
    cases node <;> cases same
    exact .identifier _ _
  | beside head given noOf free ih =>
    intro node same
    obtain ⟨first, rest, line, rfl, callee, others⟩ := Node.call_of_unlined same
    obtain ⟨here, later⟩ := List.forall_mem_cons.mp fits
    refine .call line (head.utters here callee) fun argument member => ?_
    exact ih later (List.mem_singleton.mp (others argument member))
  | @operation words operator split left right noOf cut before after ihBefore ihAfter =>
    intro node same
    obtain ⟨first, rest, line, rfl, callee, others⟩ := Node.call_of_unlined same
    have joined := Split.at?_join (Split.atOperator?_cut cut)
    rw [← joined] at fits
    refine .call line ?_ fun argument member => ?_
    · cases first <;> cases callee
      exact .identifier _ _
    · have operand := others argument member
      rw [List.mem_cons, List.mem_singleton] at operand
      rcases operand with here | here
      · exact ihBefore (fun token member => fits token (List.mem_append_left _ member)) here
      · exact ihAfter (fun token member => fits token (List.mem_append_right _ (List.mem_cons_of_mem _ member))) here
  | @called before after found callee arguments isOf noOf named short long count given ihLong ihGiven =>
    intro node same
    obtain ⟨first, rest, line, rfl, head, others⟩ := Node.call_of_unlined same
    have inFront := fun token member => fits token (List.mem_append_left _ member)
    have behind := fun token member => fits token (List.mem_append_right _ (List.mem_cons_of_mem _ member))
    refine .call line ?_ fun argument member => ihGiven _ (others argument member) behind rfl
    rcases before with _ | ⟨token, _ | ⟨second, further⟩⟩
    · exact absurd rfl named
    · exact (short token rfl).utters (inFront token List.mem_cons_self) head
    · exact ihLong (by simp) inFront head

theorem read_utters (anchor : Span) (fits : TextsFit fit words) : (read words anchor).Ensures (·.Utters fit) :=
  fun node ok => (read_sound words anchor node ok).utters fits.texts rfl

theorem expect_utters (anchor : Span) (context : String) (fits : TextsFit fit words) :
    (expect words anchor context).Ensures (·.Utters fit) :=
  ensures_expect context (read_utters anchor fits)

end Expression

/-! ### Statements -/

namespace Statement

open Token Traced

variable {fit : String → Prop} {words : List Token}

theorem readPlain_utters (first : Token) (stop : Span) (fits : TextsFit fit words) :
    (readPlain first words stop).Ensures (·.Utters fit) := by
  unfold readPlain
  split
  · rename_i split cut
    have joined := Split.at?_join cut
    have behind : split.after <:+: words := ⟨split.before ++ [split.found], [], by simp [joined]⟩
    refine ensures_bind (fun _ _ => trivial) fun target _ => ?_
    exact ensures_bind (Expression.expect_utters _ _ (fits.part behind)) fun value given =>
      ensures_pure (.assignment target _ given)
  · exact Expression.read_utters stop fits

theorem readReturns_utters (keyword : Token) (stop : Span) (fits : TextsFit fit words) :
    (readReturns keyword words stop).Ensures (·.Utters fit) := by
  unfold readReturns
  dsimp only
  split
  · exact ensures_pure (.returns _ (.nothing _))
  · exact ensures_bind (Expression.read_utters stop fits) fun value given => ensures_pure (.returns _ given)

theorem utters_yields : Yields (TextsFit fit) (·.Utters fit) where
  infixed fits inside := fits.part inside
  nothing line := .nothing line
  breaks line := .breaks line
  tested words anchor context fits := by
    intro condition ok block other line taken rest
    have test := Expression.expect_utters anchor context fits condition ok
    exact ⟨.conditional line test taken rest, .loop line test taken rest⟩
  headed keyword words name param fits heading body line taken := by
    obtain ⟨before, found, between, means, rfl, -, -, named, -⟩ := readHeading_ok heading
    exact .definition [param] 0 line (fits.names before name (List.prefix_append _ _).isInfix named) taken
  returned keyword words stop fits := readReturns_utters keyword stop fits
  plain first words stop fits := readPlain_utters first stop fits

end Statement

/-! ### Sources -/

open Text (Unbroken unbroken_intercalate)

theorem Text.Tight.unbroken {text : String} (tight : Tight text) : Unbroken text :=
  fun inside => absurd (tight.2 '\n' inside) (by decide)

namespace Token

theorem Names.unbroken {words : List Token} {name : String} (names : Names words name)
    (tight : ∀ token ∈ words, token.Tight) : Unbroken name := by
  rw [← names.joined]
  refine unbroken_intercalate (by decide) fun part member => ?_
  obtain ⟨token, given, rfl⟩ := List.mem_map.mp member
  exact (tight token given (names.plain token given)).unbroken

/-- A text takes the rest of its line, word by word. -/
theorem ofWords_unbroken (span : Span) {words : List Text.Word} (unbroken : ∀ word ∈ words, Unbroken word.text) :
    ∀ token ∈ ofWords span words, token.kind = .text → Unbroken token.lexeme := by
  fun_induction ofWords span words with
  | case1 => exact List.forall_mem_nil _
  | case2 =>
    refine List.forall_mem_singleton.mpr fun _ => ?_
    show Unbroken ""
    decide
  | case3 word => exact List.forall_mem_singleton.mpr fun _ => unbroken word List.mem_cons_self
  | case4 word next rest =>
    refine List.forall_mem_singleton.mpr fun _ => unbroken_intercalate (by decide) fun part member => ?_
    obtain ⟨later, given, rfl⟩ := List.mem_map.mp member
    exact unbroken later (List.mem_cons_of_mem _ given)
  | case5 word next rest _ _ ih =>
    refine List.forall_mem_cons.mpr ⟨?_, ih fun later member => ?_⟩
    · intro other
      cases other
    · exact unbroken later (List.mem_cons_of_mem _ (List.mem_cons_of_mem _ member))
  | case6 word next rest _ _ ih =>
    refine List.forall_mem_cons.mpr ⟨fun _ => unbroken word List.mem_cons_self, ih fun later member => ?_⟩
    exact unbroken later (List.mem_cons_of_mem _ member)

theorem unbroken_pervades : Pervades fun token => token.kind = .text → Unbroken token.lexeme where
  words span text := ofWords_unbroken span fun word member => (Text.words_tight text word member).unbroken
  beginIndent _ other := by cases other
  endIndent _ other := by cases other
  newline _ other := by cases other
  eof _ other := by cases other

end Token

theorem Source.program_utters {source : Source} {program : List Node} (read : source.program.result = .ok program) :
    ∀ node ∈ program, node.Utters Unbroken := by
  obtain ⟨tokens, lexed, parsed⟩ := program_parsed read
  have tight := Source.tokens_tight lexed
  refine Program.read_yields Statement.utters_yields ⟨tokens_pervaded Token.unbroken_pervades lexed, ?_⟩ program parsed
  intro part name inside names
  exact names.unbroken fun token member => tight token (inside.subset member)

end Parlance
