import Parlance.Proofs.Dialogue
import Parlance.Proofs.Node.Quiet
import Parlance.Proofs.Node.Yields
import Parlance.Proofs.Token.Tight

/-! The names that a program binds: targets of assignments, procedures and their parameters. In a program that has been
read from a source each of them is a row of words with single spaces between. -/
namespace Parlance

namespace Text

/-- Nowhere do two spaces stand next to each other. -/
def SingleSpaced (name : String) : Prop :=
  ¬ [' ', ' '] <:+: name.toList

theorem infix_of_append_tight {part rest : List Char} (spaceless : ∀ c ∈ part, c ≠ ' ')
    (doubled : [' ', ' '] <:+: part ++ rest) : [' ', ' '] <:+: rest := by
  induction part with
  | nil => exact doubled
  | cons c part ih =>
    obtain ⟨first, others⟩ := List.forall_mem_cons.mp spaceless
    rcases List.infix_cons_iff.mp doubled with here | later
    · exact absurd (List.cons_prefix_cons.mp here).1.symm first
    · exact ih others later

theorem intercalate_begins {part : List Char} (rest : List (List Char)) (nonempty : part ≠ []) :
    ∃ c more, [' '].intercalate (part :: rest) = c :: more ∧ c ∈ part := by
  obtain ⟨c, remaining, rfl⟩ := List.exists_cons_of_ne_nil nonempty
  cases rest with
  | nil => exact ⟨c, remaining, List.intercalate_singleton, List.mem_cons_self⟩
  | cons next further => exact ⟨c, _, by rw [List.intercalate_cons_cons]; rfl, List.mem_cons_self⟩

theorem intercalate_single {parts : List (List Char)} (tight : ∀ part ∈ parts, part ≠ [] ∧ ∀ c ∈ part, c ≠ ' ') :
    ¬ [' ', ' '] <:+: [' '].intercalate parts := by
  induction parts with
  | nil => decide
  | cons part rest ih =>
    obtain ⟨⟨_, spaceless⟩, others⟩ := List.forall_mem_cons.mp tight
    intro doubled
    cases rest with
    | nil =>
      rw [List.intercalate_singleton, ← List.append_nil part] at doubled
      exact absurd (infix_of_append_tight spaceless doubled) (by decide)
    | cons next further =>
      rw [List.intercalate_cons_cons, List.append_assoc, List.singleton_append] at doubled
      rcases List.infix_cons_iff.mp (infix_of_append_tight spaceless doubled) with here | later
      · -- The part after the separator begins with a character of its own.
        obtain ⟨nonempty, visible⟩ := others next List.mem_cons_self
        obtain ⟨c, more, begins, member⟩ := intercalate_begins further nonempty
        have second := (List.cons_prefix_cons.mp here).2
        rw [begins] at second
        exact visible c member (List.cons_prefix_cons.mp second).1.symm
      · exact ih others later

theorem Tight.spaceless {text : String} (tight : Tight text) : ∀ c ∈ text.toList, c ≠ ' ' := by
  rintro c member rfl
  exact absurd (tight.2 ' ' member) (by decide)

end Text

namespace Node

variable {allowed : String → Prop}

mutual

/-- Every name that the node binds is allowed, those bound in the bodies of procedures included. -/
def BindsOnly (allowed : String → Prop) : Node → Prop
  | .call callee arguments _ => callee.BindsOnly allowed ∧ AllBindOnly allowed arguments
  | .identifier .. | .literal .. | .breaks _ => True
  | .assignment target value _ =>
    (∀ name line, target = .identifier name line → allowed name) ∧ value.BindsOnly allowed
  | .conditional condition thenBlock elseBlock _ =>
    condition.BindsOnly allowed ∧ AllBindOnly allowed thenBlock ∧ AllBindOnly allowed elseBlock
  | .loop condition body otherwise _ =>
    condition.BindsOnly allowed ∧ AllBindOnly allowed body ∧ AllBindOnly allowed otherwise
  | .definition name params body _ _ =>
    allowed name ∧ (∀ param ∈ params, allowed param) ∧ AllBindOnly allowed body
  | .returns value _ => value.BindsOnly allowed

def AllBindOnly (allowed : String → Prop) : List Node → Prop
  | [] => True
  | node :: rest => node.BindsOnly allowed ∧ AllBindOnly allowed rest

end

theorem allBindOnly_iff (nodes : List Node) : AllBindOnly allowed nodes ↔ ∀ node ∈ nodes, node.BindsOnly allowed := by
  induction nodes with
  | nil => simp [AllBindOnly]
  | cons node rest ih => simp [AllBindOnly, ih]

mutual

/-- A quiet node binds no name at all. -/
theorem bindsOnly_of_quiet : (node : Node) → node.isQuiet = true → node.BindsOnly allowed
  | .call callee arguments _, quiet => by
    simp only [isQuiet, Bool.and_eq_true] at quiet
    exact ⟨bindsOnly_of_quiet callee quiet.1, allBindOnly_of_quiet arguments quiet.2⟩
  | .identifier .., _ | .literal .., _ | .breaks _, _ => trivial
  | .conditional condition thenBlock elseBlock _, quiet => by
    simp only [isQuiet, Bool.and_eq_true] at quiet
    exact ⟨bindsOnly_of_quiet condition quiet.1.1, allBindOnly_of_quiet thenBlock quiet.1.2,
      allBindOnly_of_quiet elseBlock quiet.2⟩
  | .loop condition body otherwise _, quiet => by
    simp only [isQuiet, Bool.and_eq_true] at quiet
    exact ⟨bindsOnly_of_quiet condition quiet.1.1, allBindOnly_of_quiet body quiet.1.2,
      allBindOnly_of_quiet otherwise quiet.2⟩
  | .returns value _, quiet => bindsOnly_of_quiet value quiet

theorem allBindOnly_of_quiet : (nodes : List Node) → allQuiet nodes = true → AllBindOnly allowed nodes
  | [], _ => trivial
  | node :: rest, quiet => by
    simp only [allQuiet, Bool.and_eq_true] at quiet
    exact ⟨bindsOnly_of_quiet node quiet.1, allBindOnly_of_quiet rest quiet.2⟩

end

mutual

/-- Numbering the definitions changes no name. -/
theorem bindsOnly_number (site : Nat) : (node : Node) → node.BindsOnly allowed →
    (node.number site).1.BindsOnly allowed
  | .call callee arguments _, given =>
    ⟨bindsOnly_number site callee given.1, allBindOnly_numberAll _ arguments given.2⟩
  | .identifier .., _ | .literal .., _ | .breaks _, _ => trivial
  | .assignment target value _, given => by
    refine ⟨?_, bindsOnly_number _ value given.2⟩
    intro name line same
    cases target with
    | identifier other inner =>
      cases same
      exact given.1 name line rfl
    | call | literal | assignment | conditional | loop | breaks | definition | returns => cases same
  | .conditional condition thenBlock elseBlock _, given =>
    ⟨bindsOnly_number site condition given.1, allBindOnly_numberAll _ thenBlock given.2.1,
      allBindOnly_numberAll _ elseBlock given.2.2⟩
  | .loop condition body otherwise _, given =>
    ⟨bindsOnly_number site condition given.1, allBindOnly_numberAll _ body given.2.1,
      allBindOnly_numberAll _ otherwise given.2.2⟩
  | .definition _ _ body _ _, given => ⟨given.1, given.2.1, allBindOnly_numberAll _ body given.2.2⟩
  | .returns value _, given => bindsOnly_number site value given

theorem allBindOnly_numberAll (site : Nat) : (nodes : List Node) → AllBindOnly allowed nodes →
    AllBindOnly allowed (numberAll site nodes).1
  | [], _ => trivial
  | node :: rest, given => ⟨bindsOnly_number site node given.1, allBindOnly_numberAll _ rest given.2⟩

end

end Node

open Text (SingleSpaced)

theorem Token.Names.single {words : List Token} {name : String} (names : Names words name)
    (tight : ∀ token ∈ words, token.Tight) : SingleSpaced name := by
  unfold SingleSpaced
  rw [← names.joined, String.toList_intercalate]
  refine Text.intercalate_single ?_
  intro part member
  obtain ⟨lexeme, inside, rfl⟩ := List.mem_map.mp member
  obtain ⟨token, given, rfl⟩ := List.mem_map.mp inside
  have word := tight token given (names.plain token given)
  exact ⟨word.1, word.spaceless⟩

theorem Expression.expect_quiet (words : List Token) (anchor : Span) (context : String) :
    (expect words anchor context).Ensures (·.isQuiet = true) :=
  ensures_expect context (read_quiet words anchor)

/-! ### Statements -/

namespace Statement

open Node Traced

theorem readPlain_single {first : Token} {words : List Token} {stop : Span} (tight : ∀ token ∈ words, token.Tight) :
    (readPlain first words stop).Ensures (·.BindsOnly SingleSpaced) := by
  unfold readPlain
  split
  · rename_i split cut
    have target : (Traced.ofExcept (Expression.readName split.before split.found.span)).Ensures
        fun node => ∀ name line, node = .identifier name line → SingleSpaced name := by
      rintro node ok name line rfl
      obtain ⟨lead, rest, joined, same, -, names, spelled⟩ := Expression.readName_ok ok
      cases spelled
      refine names.single fun token member => tight token ?_
      rw [← Split.at?_join cut, same]
      exact List.mem_append_left _ (List.mem_cons_of_mem _ member)
    refine ensures_bind target fun node named => ?_
    refine ensures_bind (Expression.expect_quiet _ _ _) fun value quiet => ensures_pure ?_
    exact ⟨named, bindsOnly_of_quiet value quiet⟩
  · exact fun node ok => bindsOnly_of_quiet node (Expression.read_quiet words stop node ok)

theorem readReturns_single (keyword : Token) (words : List Token) (stop : Span) :
    (readReturns keyword words stop).Ensures (·.BindsOnly SingleSpaced) := by
  unfold readReturns
  dsimp only
  split
  · exact ensures_pure trivial
  · exact ensures_bind (Expression.read_quiet words stop) fun value quiet =>
      ensures_pure (bindsOnly_of_quiet value quiet)

theorem single_yields : Yields (∀ token ∈ ·, token.Tight) (·.BindsOnly SingleSpaced) where
  infixed tight inside token member := tight token (inside.subset member)
  nothing _ := trivial
  breaks _ := trivial
  tested words anchor context _ := by
    intro condition ok block other line taken rest
    have test : condition.BindsOnly SingleSpaced :=
      bindsOnly_of_quiet condition (Expression.expect_quiet words anchor context condition ok)
    have inside := (allBindOnly_iff block).mpr taken
    have outside := (allBindOnly_iff other).mpr rest
    exact ⟨⟨test, inside, outside⟩, test, inside, outside⟩
  headed keyword words name param tight heading body line taken := by
    obtain ⟨before, found, between, means, rfl, -, -, named, given⟩ := readHeading_ok heading
    refine ⟨named.single fun token member => tight token (by simp [member]), ?_, (allBindOnly_iff body).mpr taken⟩
    exact List.forall_mem_singleton.mpr (given.single fun token member => tight token (by simp [member]))
  returned keyword words stop _ := readReturns_single keyword words stop
  plain _ _ _ tight := readPlain_single tight

end Statement

/-- A program read from a source binds no name with two spaces side by side. -/
theorem Source.program_single {source : Source} {program : List Node} (read : source.program.result = .ok program) :
    ∀ node ∈ program, node.BindsOnly SingleSpaced := by
  obtain ⟨tokens, lexed, parsed⟩ := program_parsed read
  exact Program.read_yields Statement.single_yields (Source.tokens_tight lexed) program parsed

/-- Nor does a statement that the interactive session reads. -/
theorem Prompt.Offers.single {tokens : List Token} {node : Node} (offers : Offers tokens node)
    (tight : ∀ token ∈ tokens, token.Tight) : node.BindsOnly SingleSpaced := by
  have yields := Statement.single_yields
  induction offers with
  | here next read =>
    have words := yields.infixed tight (Sentence.next?_within next)
    exact yields.read words (yields.within tight (Sentence.next?_suffix next)) _ read
  | later next read offered ih =>
    have tightAfter := yields.within tight (Sentence.next?_suffix next)
    exact ih (yields.within tightAfter (Statement.read _ _).within)

end Parlance
