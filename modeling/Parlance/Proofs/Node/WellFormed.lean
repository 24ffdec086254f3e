import Parlance.Proofs.Node.Names

/-! The shape of what can be read. Tokens that make a program at all make one of a small set of trees: expressions are calls,
names and literals, each at its place, and every statement has its parts of the right kind. -/
namespace Parlance

namespace Node

/-- The node is an expression, and the names that it looks up are fit. A call has at most one argument, unless it is an
operator's: then it has two, and its callee is the operator's own name. -/
inductive Expresses (fit : String → Prop) : Node → Prop
  | identifier {name : String} (line : Nat) (fits : fit name) : Expresses fit (.identifier name line)
  | literal (value : Literal) (line : Nat) : Expresses fit (.literal value line)
  | call {callee : Node} {arguments : List Node} (line : Nat) (head : Expresses fit callee)
      (few : arguments.length ≤ 1) (given : ∀ argument ∈ arguments, Expresses fit argument) :
      Expresses fit (.call callee arguments line)
  | operation (operator : Operator) {left right : Node} (inner line : Nat) (before : Expresses fit left)
      (after : Expresses fit right) :
      Expresses fit (.call (.identifier operator.procedureName inner) [left, right] line)

/-- The node is a statement whose parts are what their places ask for, however deep. -/
inductive WellFormed (fit : String → Prop) : Node → Prop
  | expression {node : Node} (expresses : node.Expresses fit) : WellFormed fit node
  | assignment (name : String) {value : Node} (inner line : Nat) (given : value.Expresses fit) :
      WellFormed fit (.assignment (.identifier name inner) value line)
  | conditional {condition : Node} {thenBlock elseBlock : List Node} (line : Nat) (test : condition.Expresses fit)
      (taken : ∀ node ∈ thenBlock, WellFormed fit node) (otherwise : ∀ node ∈ elseBlock, WellFormed fit node) :
      WellFormed fit (.conditional condition thenBlock elseBlock line)
  | loop {condition : Node} {body otherwise : List Node} (line : Nat) (test : condition.Expresses fit)
      (inside : ∀ node ∈ body, WellFormed fit node) (after : ∀ node ∈ otherwise, WellFormed fit node) :
      WellFormed fit (.loop condition body otherwise line)
  | breaks (line : Nat) : WellFormed fit (.breaks line)
  | definition (name param : String) {body : List Node} (site line : Nat) (inside : ∀ node ∈ body, WellFormed fit node) :
      WellFormed fit (.definition name [param] body site line)
  | returns {value : Node} (line : Nat) (given : value.Expresses fit) : WellFormed fit (.returns value line)

variable {fit : String → Prop}

theorem unlinedAll_eq_map (nodes : List Node) : unlinedAll nodes = nodes.map unlined := by
  induction nodes with
  | nil => rfl
  | cons node rest ih => rw [unlinedAll, ih, List.map_cons]

theorem Expresses.of_unlined {flat : Node} (expresses : flat.Expresses fit) :
    ∀ {node : Node}, node.unlined = flat → node.Expresses fit := by
  induction expresses with
  | identifier line fits =>
    intro node same
    cases node <;> cases same
    exact .identifier _ fits
  | literal value line =>
    intro node same
    cases node <;> cases same
    exact .literal _ _
  | call line head few given ihHead ihGiven =>
    intro node same
    cases node <;> cases same
    rw [unlinedAll_eq_map] at few ihGiven
    refine .call _ (ihHead rfl) (by simpa using few) ?_
    exact fun argument member => ihGiven _ (List.mem_map_of_mem member) rfl
  | @operation operator left right inner line before after ihBefore ihAfter =>
    intro node same
    cases node with
    | call callee arguments own =>
      obtain ⟨head, parts, -⟩ := Node.call.inj same
      cases callee <;> cases head
      rw [unlinedAll_eq_map] at parts
      obtain ⟨first, rest, rfl, firstSame, restSame⟩ := List.map_eq_cons_iff.mp parts
      obtain ⟨second, rest, rfl, secondSame, restSame⟩ := List.map_eq_cons_iff.mp restSame
      cases List.map_eq_nil_iff.mp restSame
      exact .operation operator _ _ (ihBefore firstSame) (ihAfter secondSame)
    | identifier | literal | assignment | conditional | loop | breaks | definition | returns => cases same

/-! Numbering the definitions does not change the shape. -/

/-- An expression has no definition to number. -/
theorem Expresses.number {node : Node} (expresses : node.Expresses fit) (site : Nat) : node.number site = (node, site) := by
  induction expresses with
  | identifier | literal => rfl
  | @call callee arguments line head few given ihHead ihGiven =>
    have rest : numberAll site arguments = (arguments, site) := by
      rcases arguments with _ | ⟨argument, _ | ⟨next, rest⟩⟩
      · rfl
      · simp only [numberAll, ihGiven argument List.mem_cons_self]
      · simp at few
    simp only [Node.number, ihHead, rest]
  | operation operator inner line before after ihBefore ihAfter =>
    simp only [Node.number, numberAll, ihBefore, ihAfter]

theorem forall_numberAll {good : Node → Prop} {nodes : List Node}
    (kept : ∀ node ∈ nodes, ∀ site, good (node.number site).1) (site : Nat) :
    ∀ node ∈ (numberAll site nodes).1, good node := by
  induction nodes generalizing site with
  | nil => exact fun node member => absurd member List.not_mem_nil
  | cons node rest ih =>
    obtain ⟨here, later⟩ := List.forall_mem_cons.mp kept
    exact List.forall_mem_cons.mpr ⟨here site, ih later _⟩

theorem WellFormed.number {node : Node} (formed : node.WellFormed fit) (site : Nat) :
    (node.number site).1.WellFormed fit := by
  induction formed generalizing site with
  | expression expresses =>
    rw [expresses.number]
    exact .expression expresses
  | assignment name inner line given =>
    simp only [Node.number, given.number]
    exact .assignment name inner line given
  | conditional line test taken otherwise ihTaken ihOtherwise =>
    simp only [Node.number, test.number]
    exact .conditional line test (forall_numberAll ihTaken _) (forall_numberAll ihOtherwise _)
  | loop line test inside after ihInside ihAfter =>
    simp only [Node.number, test.number]
    exact .loop line test (forall_numberAll ihInside _) (forall_numberAll ihAfter _)
  | breaks line => exact .breaks line
  | definition name param own line inside ih => exact .definition name param _ line (forall_numberAll ih _)
  | returns line given =>
    simp only [Node.number, given.number]
    exact .returns line given

end Node

/-! ### Expressions -/

/-- Whatever plain words of the line are taken for a name, the name is fit. -/
def Token.NamesFit (fit : String → Prop) (words : List Token) : Prop :=
  ∀ part name, part <:+: words → Token.Names part name → fit name

theorem Token.NamesFit.part {fit : String → Prop} {words part : List Token} (fits : NamesFit fit words)
    (inside : part <:+: words) : NamesFit fit part :=
  fun _ name within names => fits _ name (within.trans inside) names

namespace Expression

open Token Traced

variable {fit : String → Prop} {words : List Token} {token : Token} {node : Node}

theorem Head.expresses (head : Head token node) (fits : NamesFit fit [token]) : node.Expresses fit := by
  cases head with
  | word kind =>
    refine .identifier 0 (fits [token] _ (List.infix_refl _) ⟨by simp, ?_, ?_⟩)
    · exact List.forall_mem_singleton.mpr kind
    · exact String.intercalate_singleton
  | atom atom => cases atom <;> exact .literal _ _

theorem Means.expresses (means : Means words node) (fits : NamesFit fit words) : node.Expresses fit := by
  induction means with
  | atom atom => cases atom <;> exact .literal _ _
  | name led names free => exact .identifier 0 (fits _ _ (List.suffix_cons _ _).isInfix names)
  | beside head given noOf free ih =>
    refine .call 0 (head.expresses (fits.part ⟨[], _, rfl⟩)) Nat.le.refl ?_
    exact List.forall_mem_singleton.mpr (ih (fits.part (List.suffix_cons _ _).isInfix))
  | @operation words operator split left right noOf cut before after ihBefore ihAfter =>
    have joined := Split.at?_join (Split.atOperator?_cut cut)
    have inFront : split.before <:+: words := ⟨[], split.found :: split.after, joined⟩
    have behind : split.after <:+: words := ⟨split.before ++ [split.found], [], by simp [joined]⟩
    exact .operation operator 0 0 (ihBefore (fits.part inFront)) (ihAfter (fits.part behind))
  | @called before after found callee arguments isOf noOf named short long count given ihLong ihGiven =>
    have inFront : before <:+: before ++ found :: after := (List.prefix_append _ _).isInfix
    have behind : after <:+: before ++ found :: after :=
      ((List.suffix_cons found after).trans (List.suffix_append before _)).isInfix
    refine .call 0 ?_ (by split at count <;> omega) fun argument member => ihGiven argument member (fits.part behind)
    rcases before with _ | ⟨token, _ | ⟨second, rest⟩⟩
    · exact absurd rfl named
    · exact (short token rfl).expresses (fits.part inFront)
    · exact ihLong (by simp) (fits.part inFront)

theorem read_expresses (anchor : Span) (fits : NamesFit fit words) : (read words anchor).Ensures (·.Expresses fit) :=
  fun node ok => ((read_sound words anchor node ok).expresses fits).of_unlined rfl

theorem expect_expresses (anchor : Span) (context : String) (fits : NamesFit fit words) :
    (expect words anchor context).Ensures (·.Expresses fit) :=
  ensures_expect context (read_expresses anchor fits)

end Expression

/-! ### Statements -/

namespace Statement

open Token Traced

variable {fit : String → Prop} {words : List Token}

theorem readPlain_wellFormed (first : Token) (stop : Span) (fits : NamesFit fit words) :
    (readPlain first words stop).Ensures (·.WellFormed fit) := by
  unfold readPlain
  split
  · rename_i split cut
    have joined := Split.at?_join cut
    have behind : split.after <:+: words := ⟨split.before ++ [split.found], [], by simp [joined]⟩
    have target : (Traced.ofExcept (Expression.readName split.before split.found.span)).Ensures
        fun node => ∃ name line, node = .identifier name line := by
      intro node ok
      obtain ⟨_, _, name, _, _, _, rfl⟩ := Expression.readName_ok ok
      exact ⟨name, _, rfl⟩
    refine ensures_bind target ?_
    rintro _ ⟨name, line, rfl⟩
    exact ensures_bind (Expression.expect_expresses _ _ (fits.part behind)) fun value given =>
      ensures_pure (.assignment name line _ given)
  · exact fun node ok => .expression (Expression.read_expresses stop fits node ok)

theorem readReturns_wellFormed (keyword : Token) (stop : Span) (fits : NamesFit fit words) :
    (readReturns keyword words stop).Ensures (·.WellFormed fit) := by
  unfold readReturns
  dsimp only
  split
  · exact ensures_pure (.returns _ (.literal _ _))
  · exact ensures_bind (Expression.read_expresses stop fits) fun value given => ensures_pure (.returns _ given)

theorem wellFormed_yields : Yields (NamesFit fit) (·.WellFormed fit) where
  infixed fits inside := fits.part inside
  nothing _ := .expression (.literal _ _)
  breaks line := .breaks line
  tested words anchor context fits := by
    intro condition ok block other line taken rest
    have test := Expression.expect_expresses anchor context fits condition ok
    exact ⟨.conditional line test taken rest, .loop line test taken rest⟩
  headed keyword words name param fits heading body line taken := .definition name param 0 line taken
  returned keyword words stop fits := readReturns_wellFormed keyword stop fits
  plain first words stop fits := readPlain_wellFormed first stop fits

end Statement

/-- Whatever tokens a program is read from, it is well formed. -/
theorem Program.read_wellFormed (tokens : List Token) :
    (read tokens).Ensures (∀ node ∈ ·, node.WellFormed fun _ => True) :=
  read_yields Statement.wellFormed_yields fun _ _ _ _ => trivial

open Text (SingleSpaced)

/-- A source has no words from which a name with two spaces side by side could come. -/
theorem Source.program_wellFormed {source : Source} {program : List Node} (read : source.program.result = .ok program) :
    ∀ node ∈ program, node.WellFormed SingleSpaced := by
  obtain ⟨tokens, lexed, parsed⟩ := program_parsed read
  have tight := Source.tokens_tight lexed
  refine Program.read_yields Statement.wellFormed_yields ?_ program parsed
  intro part name inside names
  exact names.single fun token member => tight token (inside.subset member)

end Parlance
