import Mathlib
import Parlance.Proofs.Machine.Binding
import Parlance.Proofs.Machine.Discipline
import Parlance.Proofs.Moment.Sound
import Parlance.Proofs.Node.Names

/-! The operators' procedures are bound in the root under names with two spaces side by side. A program that is read from
a source cannot bind such a name, so wherever an operator is used, it is found. -/
namespace Parlance

open Arena
open Text (SingleSpaced)

theorem Operator.procedureName_doubled (operator : Operator) : ¬ SingleSpaced operator.procedureName := by
  refine fun single => single ⟨['i', 'n', 'f', 'i', 'x'], operator.spelling.toList, ?_⟩
  rw [procedureName, String.toList_append]
  rfl

/-- An expression without `of` that is split at an operator becomes a call of the operator's procedure. -/
theorem Expression.read_operator {words : List Token} {anchor : Span} {operator : Operator} {split : Split}
    (notCall : Split.atKind? (.keyword .ofWord) words = none)
    (cut : Split.atOperator? words = some (operator, split)) :
    (read words anchor).Ensures fun node =>
      ∃ left right line, node = .call (.identifier operator.procedureName line) [left, right] line := by
  cases words with
  | nil =>
    rw [read]
    exact Traced.ensures_fail _ _
  | cons first rest =>
    rw [read]
    refine Traced.ensures_bind (Traced.ensures_tell _) fun _ _ => ?_
    split
    · rename_i called
      rw [notCall] at called
      cases called
    · split
      · rename_i other otherSplit otherCut
        rw [cut] at otherCut
        cases otherCut
        dsimp only
        split
        · exact Traced.ensures_bind (Traced.ensures_fail _ fun _ => False) fun _ none => none.elim
        · refine Traced.ensures_bind (fun _ _ => trivial) fun left _ => ?_
          split
          · exact Traced.ensures_bind (Traced.ensures_fail _ fun _ => False) fun _ none => none.elim
          · exact Traced.ensures_bind (fun _ _ => trivial) fun right _ => Traced.ensures_pure ⟨left, right, _, rfl⟩
      · rename_i uncut
        rw [cut] at uncut
        cases uncut

/-- Whatever the value's procedure binds when it is invoked is allowed. -/
def Value.BindsOnly (allowed : String → Prop) (value : Value) : Prop :=
  ∀ closure, value = .procedure (.closure closure) →
    (∀ param ∈ closure.params, allowed param) ∧ ∀ node ∈ closure.body, node.BindsOnly allowed

theorem Value.bindsOnly_of_handle? {allowed : String → Prop} {value : Value} (none : value.handle? = none) :
    value.BindsOnly allowed := by
  rintro closure rfl
  cases none

/-- Only single-spaced names are bound. -/
def Discipline.spaced : Discipline :=
  ⟨Node.BindsOnly SingleSpaced, SingleSpaced⟩

theorem Discipline.spaced_lawful : spaced.Lawful where
  call _ arguments _ given := ⟨given.1, (Node.allBindOnly_iff arguments).mp given.2⟩
  assignment name inner _ _ given := ⟨given.1 name inner rfl, given.2⟩
  conditional _ thenBlock elseBlock _ given :=
    ⟨given.1, (Node.allBindOnly_iff thenBlock).mp given.2.1, (Node.allBindOnly_iff elseBlock).mp given.2.2⟩
  loop _ body otherwise _ given :=
    ⟨given.1, (Node.allBindOnly_iff body).mp given.2.1, (Node.allBindOnly_iff otherwise).mp given.2.2⟩
  returns _ _ given := given

/-- The names of operators are theirs, and no procedure that is bound anywhere can take them. -/
structure Arena.Reserved (arena : Arena) : Prop where
  values : ∀ id entry, arena.Live id → arena.Binds id entry → entry.2.BindsOnly SingleSpaced
  names : ∀ id entry, arena.Live id → id ≠ root → arena.Binds id entry → SingleSpaced entry.1
  operators : ∀ operator : Operator,
    arena.binding? operator.procedureName root = some (.procedure (.builtin (.ofOperator operator)))

theorem Arena.binding?_define (arena : Arena) (id other : ScopeId) {name wanted : String} (value : Value)
    (different : name ≠ wanted) : (arena.define id name value).binding? wanted other = arena.binding? wanted other := by
  unfold binding?
  rw [get?_define]
  split
  · cases arena.get? other with
    | none => rfl
    | some scope => simp [Bindings.find?_insert, different]
  · rfl

theorem Arena.binding?_capture (arena : Arena) (id other : ScopeId) (wanted : String) :
    (arena.capture id).binding? wanted other = arena.binding? wanted other := by
  unfold binding?
  rw [get?_capture]
  split
  · cases arena.get? other <;> rfl
  · rfl

/-- From every live scope an operator's name leads to the operator. -/
theorem Arena.Reserved.lookup {arena : Arena} (reserved : arena.Reserved) (closed : arena.Closed ∅) (operator : Operator)
    {id : ScopeId} (live : arena.Live id) :
    arena.lookup id operator.procedureName = some (.procedure (.builtin (.ofOperator operator))) := by
  have home : ∀ other, arena.Live other → arena.Home ∅ other := fun other alive => ⟨alive, fun outside => outside⟩
  obtain ⟨path, chain⟩ := closed.chain id (home id live)
  rw [lookup_chain chain]
  have apart : ∀ other, arena.Live other → other ≠ root → arena.binding? operator.procedureName other = none := by
    intro other alive inner
    cases found : arena.binding? operator.procedureName other with
    | none => rfl
    | some value =>
      obtain ⟨scope, here, bound⟩ := Option.bind_eq_some_iff.mp found
      have single := reserved.names other _ alive inner ⟨scope, here, Bindings.mem_of_find? bound⟩
      exact absurd single operator.procedureName_doubled
  induction chain with
  | root found top => rw [List.findSome?_cons, reserved.operators operator]
  | @inner id parent scope path found link outer ih =>
    rw [List.findSome?_cons]
    by_cases inner : id = root
    · rw [inner, reserved.operators operator]
    · rw [apart id live inner]
      obtain ⟨parent', link', parentHome, _⟩ := closed.parent id scope (home id live) inner found
      rw [link] at link'
      cases link'
      exact ih parentHome.1

/-! ### Evaluation -/

structure Config.Reserved (config : Config) : Prop where
  arena : config.session.arena.Reserved
  obeys : config.Obeys .spaced .spaced
  held : ∀ value ∈ config.values, value.BindsOnly SingleSpaced

/-- A name that is bound gives its value in one step. -/
theorem Config.step_identifier {config : Config} {name : String} {line : Nat} {scope : ScopeId} {value : Value}
    (given : config.control = .eval (.identifier name line) scope)
    (found : config.session.arena.lookup scope name = some value) :
    ∃ session, config.step = .running ⟨.value value, config.stack, session⟩ := by
  obtain ⟨control, stack, session⟩ := config
  cases given
  refine ⟨session.note (.evaluating (.identifier name line)), ?_⟩
  have looked : (session.note (.evaluating (.identifier name line))).lookup scope name = some value := found
  simp only [step, stepUnder, eval, looked]

namespace Config.Reserved

variable {config next : Config}

theorem assigned (reserved : config.Reserved) {place : Place} {name : String} {scope : ScopeId} {rest : List Frame}
    (waiting : config.stack = .assign place name scope :: rest) : SingleSpaced name := by
  have obeys := reserved.obeys.2
  rw [waiting] at obeys
  have named := obeys.1
  rw [prevailing_same] at named
  exact named

theorem defined (reserved : config.Reserved) {name : String} {params : List String} {body : List Node}
    {site line : Nat} {scope : ScopeId} (given : config.control = .eval (.definition name params body site line) scope) :
    SingleSpaced name ∧ (∀ param ∈ params, SingleSpaced param) ∧ ∀ node ∈ body, node.BindsOnly SingleSpaced := by
  have obeys := reserved.obeys.1
  rw [given, prevailing_same] at obeys
  exact ⟨obeys.1, obeys.2.1, (Node.allBindOnly_iff body).mp obeys.2.2⟩

/-- The procedure and the arguments of an invocation are in the evaluation's hands. -/
theorem entering (reserved : config.Reserved) {closure : Closure} {arguments : List Value}
    (given : config.control = .invoke (.closure closure) arguments) :
    ((∀ param ∈ closure.params, SingleSpaced param) ∧ ∀ node ∈ closure.body, node.BindsOnly SingleSpaced) ∧
      ∀ value ∈ arguments, value.BindsOnly SingleSpaced := by
  have held : ∀ value ∈ Value.procedure (.closure closure) :: arguments, value.BindsOnly SingleSpaced := by
    intro value member
    refine reserved.held value ?_
    unfold Config.values
    rw [given]
    exact List.mem_append_left _ member
  obtain ⟨procedure, rest⟩ := List.forall_mem_cons.mp held
  exact ⟨procedure closure rfl, rest⟩

theorem values_step (reserved : config.Reserved) {id : ScopeId} {entry : String × Value}
    (bound : config.Bound id entry) : entry.2.BindsOnly SingleSpaced := by
  cases bound with
  | kept live binds => exact reserved.arena.values id entry live binds
  | assigned place rest waiting given =>
    refine reserved.held entry.2 ?_
    unfold Config.values
    rw [given]
    exact List.mem_append_left _ List.mem_cons_self
  | defined params body site line given made =>
    rw [made]
    rintro closure ⟨⟩
    exact (reserved.defined given).2
  | passed closure arguments fresh given member =>
    exact (reserved.entering given).2 entry.2 (List.of_mem_zip member).2

theorem names_step (reserved : config.Reserved) {id : ScopeId} (inner : id ≠ root) {entry : String × Value}
    (bound : config.Bound id entry) : SingleSpaced entry.1 := by
  cases bound with
  | kept live binds => exact reserved.arena.names id entry live inner binds
  | assigned place rest waiting given => exact reserved.assigned waiting
  | defined params body site line given made => exact (reserved.defined given).1
  | passed closure arguments fresh given member =>
    exact (reserved.entering given).1.1 entry.1 (List.of_mem_zip member).1

theorem operators_step (reserved : config.Reserved)
    (seats : config.session.arena.Seats (some root) (invocations config.stack)) (effect : Effect config next)
    (operator : Operator) :
    next.session.arena.binding? operator.procedureName root = config.session.arena.binding? operator.procedureName root := by
  have apart : ∀ name, SingleSpaced name → name ≠ operator.procedureName :=
    fun name single same => operator.procedureName_doubled (same ▸ single)
  have kept : ∀ scope, root ≠ scope → Spares scope config.session.arena next.session.arena →
      next.session.arena.binding? operator.procedureName root =
        config.session.arena.binding? operator.procedureName root := by
    intro scope different spares
    unfold binding?
    rw [(spares root different seats.tidy.rooted).2]
  have fresh : root ≠ config.session.arena.vacant :=
    fun same => config.session.arena.vacant_not_live (same ▸ seats.tidy.rooted)
  cases effect with
  | still arena owned => rw [arena]
  | assign place name scope rest value waiting given arena owned =>
    rw [arena, binding?_define _ _ _ _ (apart name (reserved.assigned waiting))]
  | definition name params body site line scope given arena owned =>
    rw [arena, binding?_define _ _ _ _ (apart name (reserved.defined given).1), binding?_capture]
  | enter closure arguments given arena owned => exact kept _ fresh (arena ▸ spares_enter seats.tidy closure.scope _)
  | leave scope arena owned =>
    have own := seats.alive scope (owned ▸ List.mem_cons_self)
    exact kept scope (Ne.symm own.2) (arena ▸ spares_release own.1)
  | pass closure arguments given arena owned => exact kept _ fresh (arena ▸ spares_pass seats.tidy closure.scope _)

theorem held_step (reserved : config.Reserved) (sound : config.Sound ∅ (some root)) {value : Value}
    (origin : Origin config value) : value.BindsOnly SingleSpaced := by
  cases origin with
  | held member => exact reserved.held value member
  | plain none => exact Value.bindsOnly_of_handle? none
  | bound name line scope given found =>
    have works := sound.placed.1 scope (by rw [given]; rfl)
    obtain ⟨holder, there, home, here, member⟩ := sound.hosts.closed.lookup_bound (sound.hosts.home works) found
    exact reserved.arena.values holder (name, value) home.1 ⟨there, here, member⟩

theorem step (reserved : config.Reserved) (sound : config.Sound ∅ (some root)) (stepped : config.step = .running next) :
    next.Reserved := by
  have effect := Effect.step Regime.usual_proper stepped
  have seats := sound.hosts.toSeats
  refine ⟨⟨?_, ?_, ?_⟩, ?_, ?_⟩
  · exact fun id entry live binds => reserved.values_step (bound_step seats effect live binds)
  · exact fun id entry live inner binds => reserved.names_step inner (bound_step seats effect live binds)
  · exact fun operator => (reserved.operators_step seats effect operator).trans (reserved.arena.operators operator)
  · exact Obeys.step Discipline.spaced_lawful Discipline.spaced_lawful
      (fun closure arguments given => (reserved.entering given).1.2) reserved.obeys stepped
  · exact fun value member => reserved.held_step sound (Origin.step Regime.usual_proper stepped member)

end Config.Reserved

/-! ### Sessions -/

/-- What a host asks for that only passes on sources and lines of input. -/
inductive Request.Written : Request → Prop
  | run {source : Source} {program : List Node} (read : source.program.result = .ok program) : Written (.run program)
  | statement {source : Source} {tokens : List Token} {node : Node} (lexed : source.tokens.result = .ok tokens)
      (offered : Prompt.Offers tokens node) : Written (.statement node)

/-- Nothing is bound in a new session but the builtin procedures. -/
theorem Session.binds_start {streams : Streams} {filter : Filter} {id : ScopeId} {entry : String × Value}
    (binds : (Session.start streams filter).arena.Binds id entry) :
    id = root ∧ ∃ builtin ∈ Builtin.table, entry = (builtin.name, .procedure (.builtin builtin)) := by
  rw [arena_start] at binds
  rcases binds.of_defineAll with ⟨here, member⟩ | ⟨scope, found, member⟩
  · obtain ⟨builtin, listed, same⟩ := List.mem_map.mp member
    exact ⟨here, builtin, listed, same.symm⟩
  · obtain ⟨_ | _⟩ := id <;> cases found
    cases member

theorem Session.reserved_start (streams : Streams) (filter : Filter) :
    (Session.start streams filter).arena.Reserved := by
  refine ⟨?_, ?_, ?_⟩
  · intro id entry _ binds
    obtain ⟨-, builtin, -, rfl⟩ := binds_start binds
    exact Value.bindsOnly_of_handle? rfl
  · intro id entry _ inner binds
    exact absurd (binds_start binds).1 inner
  · intro operator
    rw [arena_start]
    cases operator <;> rfl

def Phase.Reserved : Phase → Prop
  | .idle session => session.arena.Reserved
  | .busy config => config.Reserved

namespace Moment

structure Reserved (moment : Moment) : Prop where
  sound : moment.Sound
  phase : moment.phase.Reserved

namespace Reserved

variable {now next : Moment}

theorem arena (reserved : now.Reserved) : now.arena.Reserved := by
  obtain ⟨held, phase⟩ := now
  cases phase with
  | idle session => exact reserved.phase
  | busy config => exact reserved.phase.arena

theorem next_phase (reserved : now.Reserved) (move : Next Request.Written now next) : next.phase.Reserved := by
  cases move with
  | talk | take => exact reserved.phase
  | register allowed => cases allowed
  | @run held session program allowed =>
    obtain ⟨read⟩ := allowed
    have single := (Node.allBindOnly_iff program).mpr (Source.program_single read)
    have numbered := (Node.allBindOnly_iff _).mp (Node.allBindOnly_numberAll session.sites program single)
    exact ⟨reserved.phase, ⟨numbered, trivial⟩, fun value member => absurd member List.not_mem_nil⟩
  | @statement held session node allowed =>
    obtain _ | ⟨lexed, offered⟩ := allowed
    have single := offered.single (Source.tokens_tight lexed)
    have numbered := Node.bindsOnly_number session.sites node single
    exact ⟨reserved.phase, ⟨numbered, trivial⟩, fun value member => absurd member List.not_mem_nil⟩
  | invoke allowed => cases allowed
  | step stepped => exact reserved.phase.step reserved.sound.phase stepped
  | finish stepped =>
    obtain ⟨_, rfl, _⟩ := step_finished stepped
    exact reserved.phase.arena

end Reserved

theorem Reachable.reserved {moment : Moment} (reached : moment.Reachable Request.Written) : moment.Reserved := by
  have initial : ∀ streams filter, (start streams filter).Reserved :=
    fun streams filter => ⟨sound_start streams filter, Session.reserved_start streams filter⟩
  exact reached.invariant initial fun _ _ reserved move => ⟨reserved.sound.move move, reserved.next_phase move⟩

/-- Whatever sources a session executes and whatever lines its interactive sessions read, at every moment the root binds
each operator's name to the operator's own procedure, no other live scope binds a name with two spaces side by side, and
from every live scope an operator's name leads to that procedure. An operator that an expression is split at becomes a
call whose callee is such a name; when the callee's turn comes, the next step gives the operator's procedure. -/
theorem operators_never_rebound {moment : Moment} (reached : moment.Reachable Request.Written) :
    (∀ operator : Operator,
      moment.arena.binding? operator.procedureName root = some (.procedure (.builtin (.ofOperator operator)))) ∧
    (∀ id scope entry, moment.arena.Live id → id ≠ root → moment.arena.get? id = some scope →
      entry ∈ scope.bindings → ¬ [' ', ' '] <:+: entry.1.toList) ∧
    (∀ (operator : Operator) id, moment.arena.Live id →
      moment.arena.lookup id operator.procedureName = some (.procedure (.builtin (.ofOperator operator)))) ∧
    (∀ held config (operator : Operator) line scope, moment = ⟨held, .busy config⟩ →
      config.control = .eval (.identifier operator.procedureName line) scope →
      ∃ session, config.step =
        .running ⟨.value (.procedure (.builtin (.ofOperator operator))), config.stack, session⟩) ∧
    (∀ words anchor node operator split, Split.atKind? (.keyword .ofWord) words = none →
      Split.atOperator? words = some (operator, split) → (Expression.read words anchor).result = .ok node →
      ∃ left right line, node = .call (.identifier operator.procedureName line) [left, right] line) ∧
    ∀ held session, moment = ⟨held, .idle session⟩ →
      (∀ fuel source result after, session.execute fuel source = some (result, after) →
        ∃ more, Reachable Request.Written ⟨more, .idle after⟩) ∧
      ∀ fuel result after, Prompt.run fuel session = some (result, after) →
        ∃ more, Reachable Request.Written ⟨more, .idle after⟩ := by
  obtain ⟨owned, hosts⟩ := reached.sound.hosts
  have arena := reached.reserved.arena
  refine ⟨arena.operators, ?_, ?_, ?_, ?_, ?_⟩
  · intro id scope entry live inner found member
    exact arena.names id entry live inner ⟨scope, found, member⟩
  · exact fun operator id live => arena.lookup hosts.closed operator live
  · rintro held config operator line scope rfl given
    have works := reached.sound.phase.placed.1 scope (by rw [given]; rfl)
    have found := arena.lookup hosts.closed operator (reached.sound.phase.hosts.home works).1
    exact Config.step_identifier given found
  · exact fun words anchor node operator split notCall cut read => Expression.read_operator notCall cut node read
  · rintro held session rfl
    constructor
    · intro fuel source result after ran
      exact reached.execute (fun program read => .run read) ran
    · intro fuel result after talked
      exact reached.prompt (fun _ _ _ _ lexed offered => .statement lexed offered) talked

set_option maxRecDepth 20000 in
/-- However many spaces a source puts between the words of a name, the name it binds is another one. -/
theorem operators_never_rebound_despite_spaces :
    ∃ moment, Reachable Request.Written moment ∧ moment.arena.lookup root "infix plus" = some (.boolean true) ∧
      moment.arena.lookup root Operator.plus.procedureName =
        some (.procedure (.builtin (.ofOperator .plus))) := by
  have read : (Source.mk "spaces" [some "the infix  plus is true"]).program.result =
      .ok [.assignment (.identifier "infix plus" 1) (.literal (.boolean true) 1) 1] := by cbv
  have ran : ∃ outcome after, (Session.start (.ofInput []) .silent).run 20
      [.assignment (.identifier "infix plus" 1) (.literal (.boolean true) 1) 1] = some (outcome, after) ∧
      after.arena.lookup root "infix plus" = some (.boolean true) ∧ after.arena.Live root :=
    ⟨_, _, rfl, rfl, by decide⟩
  obtain ⟨outcome, after, ran, bound, live⟩ := ran
  have reached : Reachable Request.Written ⟨_, .idle after⟩ := ⟨_, _, Session.run_later [] (.run read) ran⟩
  exact ⟨_, reached, bound, (operators_never_rebound reached).2.2.1 .plus root live⟩

end Moment
end Parlance
