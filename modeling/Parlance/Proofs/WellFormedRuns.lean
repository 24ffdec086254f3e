import Mathlib
import Parlance.Proofs.Machine.Course
import Parlance.Proofs.Machine.Orderly
import Parlance.Proofs.Machine.Uniform
import Parlance.Proofs.Operators

/-! What the shape of programs rules out. In a session that has run nothing else, a program read from a source never assigns
to anything but a name, never gives an operator more or fewer than two operands, and never has a signal where the value of
an expression is wanted. -/
namespace Parlance

open Arena
open Text (SingleSpaced)

variable {fit : String → Prop}

/-- If it is a procedure, then its body is well formed. -/
def Value.Formed (fit : String → Prop) (value : Value) : Prop :=
  ∀ closure, value = .procedure (.closure closure) → ∀ node ∈ closure.body, node.WellFormed fit

theorem Value.formed_of_handle? {value : Value} (none : value.handle? = none) : value.Formed fit := by
  intro closure same
  rw [same] at none
  cases none

/-- Definitions are statements, so one that is evaluated is well formed. -/
theorem Admits.definition {stack : List Frame} {name : String} {params : List String} {body : List Node} {site line : Nat}
    (admits : Admits fit stack (.definition name params body site line)) : ∀ node ∈ body, node.WellFormed fit := by
  cases admits with
  | expression expresses => cases expresses
  | statement formed free =>
    cases formed with
    | expression expresses => cases expresses
    | definition name param site line inside => exact inside

/-- Operators' procedures are bound to names that are not fit, and every procedure has a well-formed body. -/
structure Arena.Orderly (fit : String → Prop) (arena : Arena) : Prop where
  operators : ∀ id entry, arena.Live id → arena.Binds id entry → entry.2.isOperator = true → ¬ fit entry.1
  formed : ∀ id entry, arena.Live id → arena.Binds id entry → entry.2.Formed fit

namespace Config

structure Orderly (fit : String → Prop) (config : Config) : Prop where
  sound : config.Sound ∅ (some root)
  suits : config.Suits fit
  arena : config.session.arena.Orderly fit
  held : ∀ value ∈ config.values, value.Formed fit

namespace Orderly

variable {config next : Config}

theorem carries (orderly : config.Orderly fit) : config.Carries (Value.Formed fit) :=
  ⟨orderly.held, orderly.arena.formed⟩

theorem looked_up (orderly : config.Orderly fit) {scope : ScopeId} (here : config.control.scope? = some scope)
    {name : String} {value : Value} (found : config.session.lookup scope name = some value)
    (operator : value.isOperator = true) : ¬ fit name := by
  have home := orderly.sound.control_home here
  obtain ⟨holder, there, holderHome, bound, member⟩ := orderly.sound.hosts.closed.lookup_bound home found
  exact orderly.arena.operators holder (name, value) holderHome.1 ⟨there, bound, member⟩ operator

theorem operators_step (orderly : config.Orderly fit) {id : ScopeId} {entry : String × Value}
    (bound : config.Bound id entry) (operator : entry.2.isOperator = true) : ¬ fit entry.1 := by
  have suits := orderly.suits.1
  cases bound with
  | kept live binds => exact orderly.arena.operators id entry live binds operator
  | assigned place rest waiting given =>
    rw [given, waiting] at suits
    cases suits operator
  | defined params body site line given made =>
    rw [made] at operator
    cases operator
  | passed closure arguments fresh given member =>
    rw [given] at suits
    have plain := suits.2 entry.2 (List.of_mem_zip member).2
    exact absurd operator (Bool.eq_false_iff.mp plain)

theorem step (orderly : config.Orderly fit) (stepped : config.step = .running next) : next.Orderly fit := by
  have carried : next.Carries (Value.Formed fit) := by
    refine orderly.carries.step (fun value => Value.formed_of_handle?) ?_ orderly.sound stepped
    intro name params body site line scope given closure same
    have admits := orderly.suits.1
    rw [given] at admits
    cases same
    exact admits.definition
  refine ⟨orderly.sound.step Regime.usual_proper stepped, ?_, ⟨?_, carried.bound⟩, carried.held⟩
  · refine Suits.step ?_ ?_ orderly.suits stepped
    · exact fun scope here name value found operator => orderly.looked_up here found operator
    · exact fun closure arguments given => (orderly.carries.invoked given).1 closure rfl
  · intro id entry live binds operator
    have effect := Effect.step Regime.usual_proper stepped
    exact orderly.operators_step (bound_step orderly.sound.hosts.toSeats effect live binds) operator

/-- An operator's procedure that is invoked has its operands. -/
theorem operands (orderly : config.Orderly fit) {builtin : Builtin} {arguments : List Value} {operator : Operator}
    (given : config.control = .invoke (.builtin builtin) arguments) (acts : builtin.action = .operate operator) :
    arguments.length = 2 := by
  have suits := orderly.suits.1
  rw [given] at suits
  refine suits.1 ?_
  obtain ⟨name, arity, action⟩ := builtin
  cases acts
  rfl

/-- What reaches a frame that waits for a value is a value or a failure. -/
theorem failure (orderly : config.Orderly fit) {escape : Escape} {frame : Frame} {rest : List Frame}
    (given : config.control = .escape escape) (waiting : config.stack = frame :: rest) (awaits : frame.awaits = true) :
    ∃ failure, escape = .failed failure := by
  have suits := orderly.suits.1
  rw [given, waiting] at suits
  cases escape with
  | failed failure => exact ⟨failure, rfl⟩
  | broke => exact absurd awaits (Bool.eq_false_iff.mp suits)
  | returned value => exact absurd awaits (Bool.eq_false_iff.mp suits.1)

/-- No failure has the target of an assignment as its cause. -/
theorem cause (orderly : config.Orderly fit) {failure : Failure} (given : config.control = .escape (.failed failure)) :
    failure.cause.isBadTarget = false := by
  have suits := orderly.suits.1
  rw [given] at suits
  exact suits

end Orderly
end Config

namespace Session

theorem orderly_start (streams : Streams) (filter : Filter) :
    (Session.start streams filter).arena.Orderly SingleSpaced := by
  refine ⟨?_, ?_⟩
  · intro id entry _ binds operator
    obtain ⟨-, builtin, listed, rfl⟩ := binds_start binds
    rcases List.mem_append.mp listed with other | named
    · have plain : ∀ builtin ∈ [(⟨"show", .any, .display⟩ : Builtin), ⟨"debug", .any, .inspect⟩,
          ⟨"ask", .oneOf [0, 1], .ask⟩, ⟨"number", .exact 1, .number⟩],
          (Procedure.builtin builtin).isOperator = false := by decide
      exact absurd operator (Bool.eq_false_iff.mp (plain builtin other))
    · obtain ⟨symbol, _, rfl⟩ := List.mem_map.mp named
      exact symbol.procedureName_doubled
  · intro id entry _ binds
    obtain ⟨-, builtin, -, rfl⟩ := binds_start binds
    exact Value.formed_of_handle? rfl

/-- Where the execution of a source begins, once its program has been read. -/
def launch (session : Session) (source : Source) (program : List Node) : Config :=
  let noted := (session.noteAll source.program.events).note (.programStarted source.name program.length)
  ⟨.block (noted.load program).1 root, [], (noted.load program).2⟩

theorem execute_launch (session : Session) (fuel : Nat) {source : Source} {program : List Node}
    (read : source.program.result = .ok program) :
    session.execute fuel source =
      ((session.launch source program).run fuel).map fun ended => (ended.1.mapError .ofEscape, ended.2) := by
  simp only [execute, read]
  show (Config.run fuel (session.launch source program)).bind _ = _
  cases Config.run fuel (session.launch source program) <;> rfl

/-- Nothing else has been run, so no procedure is there but the builtin ones. -/
theorem orderly_launch {session : Session} (hosts : session.arena.Hosts ∅ (some root) [])
    (orderly : session.arena.Orderly SingleSpaced) {source : Source} {program : List Node}
    (read : source.program.result = .ok program) : (session.launch source program).Orderly SingleSpaced := by
  let noted := (session.noteAll source.program.events).note (.programStarted source.name program.length)
  have ready : noted.arena.Hosts ∅ (some root) [] := hosts
  have formed := Source.program_wellFormed read
  refine ⟨Moment.Sound.begin_run ready program, ⟨⟨?_, rfl⟩, trivial⟩, orderly,
    fun value member => absurd member List.not_mem_nil⟩
  exact Node.forall_numberAll (fun node member site => (formed node member).number site) _

/-- A source that cannot be read does not fail while it runs. -/
theorem program_not_failed (source : Source) (failure : Failure) : source.program.result ≠ .error (.failed failure) := by
  intro failed
  unfold Source.program at failed
  dsimp only at failed
  split at failed
  · cases failed
  · rename_i tokens lexed
    cases parsed : (Program.read tokens).result with
    | error error =>
      rw [parsed] at failed
      cases failed
    | ok program =>
      rw [parsed] at failed
      cases failed

theorem execute_cause {session after : Session} {source : Source} {fuel : Nat} {failure : Failure}
    (begun : ∀ {program}, source.program.result = .ok program → (session.launch source program).Orderly fit)
    (ran : session.execute fuel source = some (.error (.failed failure), after)) :
    failure.cause.isBadTarget = false := by
  cases read : source.program.result with
  | error error =>
    simp only [execute, read, Option.some.injEq, Prod.mk.injEq, Except.error.injEq] at ran
    exact absurd (ran.1 ▸ read) (program_not_failed source failure)
  | ok program =>
    rw [execute_launch session fuel read] at ran
    obtain ⟨⟨outcome, final⟩, ended, same⟩ := Option.map_eq_some_iff.mp ran
    obtain ⟨last, orderly, finished⟩ := Config.run_invariant (fun _ _ => Config.Orderly.step) (begun read) ended
    have control : last.control = outcome.control := congrArg Config.control (Config.finished_atop [] finished)
    have escaped : outcome = .error (.failed failure) := by
      cases outcome with
      | ok value => cases same
      | error escape =>
        cases escape with
        | failed reason =>
          cases same
          rfl
        | broke | returned value => cases same
    exact orderly.cause (control.trans (congrArg Outcome.control escaped))

end Session

/-- Tokens that make a program make one in which every part is of the kind that its place asks for. So while a source is
executed in a new session, no operator's procedure is invoked with other than two arguments, and no signal comes to a frame
that waits for the value of an expression: a callee, an argument, a condition, what is assigned or what is returned. And
however the execution fails, it is not for the target of an assignment. -/
theorem well_formed_programs :
    (∀ tokens program, (Program.read tokens).result = .ok program →
      ∀ node ∈ program, node.WellFormed fun _ => True) ∧
    ∀ (source : Source) streams filter fuel,
      (∀ program, source.program.result = .ok program →
        (Session.start streams filter).execute fuel source =
          (((Session.start streams filter).launch source program).run fuel).map
            (fun ended => (ended.1.mapError .ofEscape, ended.2)) ∧
        ∀ config ∈ Config.course fuel ((Session.start streams filter).launch source program),
          (∀ builtin arguments operator, config.control = .invoke (.builtin builtin) arguments →
            builtin.action = .operate operator → arguments.length = 2) ∧
          ∀ escape frame rest, config.control = .escape escape → config.stack = frame :: rest → frame.awaits = true →
            ∃ failure, escape = .failed failure) ∧
      ∀ failure after, (Session.start streams filter).execute fuel source = some (.error (.failed failure), after) →
        ∀ label, failure.cause ≠ .badTarget label := by
  refine ⟨fun tokens program read => Program.read_wellFormed tokens program read, ?_⟩
  intro source streams filter fuel
  have begun {program : List Node} (read : source.program.result = .ok program) :
      ((Session.start streams filter).launch source program).Orderly SingleSpaced :=
    Session.orderly_launch (Session.hosts_start streams filter) (Session.orderly_start streams filter) read
  refine ⟨?_, ?_⟩
  · intro program read
    refine ⟨Session.execute_launch _ fuel read, fun config passed => ?_⟩
    have orderly := Config.course_invariant (fun _ _ => Config.Orderly.step) (begun read) config passed
    exact ⟨fun _ _ _ => orderly.operands, fun _ _ _ => orderly.failure⟩
  · intro failure after ran label same
    exact absurd (congrArg Fault.isBadTarget same) (Bool.eq_false_iff.mp (Session.execute_cause begun ran))

set_option maxRecDepth 20000 in
/-- A procedure that compares its argument, and a loop that is left: an operator's procedure is in use, and has its two
operands. -/
theorem well_formed_programs_at_work :
    ∃ source program, source = Source.mk "same"
        [some "by same of n we mean", some "  returns the n equals true", some "the x is same of true",
          some "while the x", some "  break"] ∧
      source.program.result = .ok program ∧ (∀ node ∈ program, node.WellFormed fun _ => True) ∧
      (∃ config ∈ Config.course 40 ((Session.start (.ofInput []) .silent).launch source program),
        ∃ value ∈ config.control.values, value.isOperator = true) ∧
      ∀ config ∈ Config.course 40 ((Session.start (.ofInput []) .silent).launch source program),
        ∀ arguments, config.control = .invoke (.builtin (.ofOperator .equals)) arguments → arguments.length = 2 := by
  have read : ∃ source program, source = Source.mk "same"
        [some "by same of n we mean", some "  returns the n equals true", some "the x is same of true",
          some "while the x", some "  break"] ∧
      source.program.result = .ok program ∧
      (Config.course 40 ((Session.start (.ofInput []) .silent).launch source program)).any
        (fun config => config.control.values.any Value.isOperator) = true :=
    ⟨_, [.definition "same" ["n"]
        [.returns (.call (.identifier "infix  equals" 2) [.identifier "n" 2, .literal (.boolean true) 2] 2) 2] 0 1,
      .assignment (.identifier "x" 3) (.call (.identifier "same" 3) [.literal (.boolean true) 3] 3) 3,
      .loop (.identifier "x" 4) [.breaks 5] [] 4], rfl, by cbv, by decide +kernel⟩
  obtain ⟨source, program, text, read, used⟩ := read
  obtain ⟨tokens, _, parsed⟩ := Source.program_parsed read
  obtain ⟨formed, runs⟩ := well_formed_programs
  obtain ⟨_, passes⟩ := (runs source (.ofInput []) .silent 40).1 program read
  obtain ⟨config, passed, given⟩ := List.any_eq_true.mp used
  refine ⟨source, program, text, read, formed tokens program parsed, ⟨config, passed, List.any_eq_true.mp given⟩, ?_⟩
  exact fun config passed arguments invoked => (passes config passed).1 _ arguments .equals invoked rfl

end Parlance
