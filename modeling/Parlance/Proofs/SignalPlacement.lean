import Mathlib
import Parlance.Proofs.Machine.Binding
import Parlance.Proofs.Machine.Course
import Parlance.Proofs.Machine.Discipline
import Parlance.Proofs.Machine.Signals
import Parlance.Proofs.Machine.Uniform
import Parlance.Proofs.Moment.Sound

/-! Signals go where the program's text says. An evaluation ends with a signal only if the node lets it out, an invocation
never does; and a program in which every `break` and `returns` is well placed neither ends with a signal nor has a procedure
that fails to stop one. -/
namespace Parlance

open Arena

namespace Discipline

/-- Every procedure that is defined keeps its `break`s. -/
def confined : Discipline :=
  ⟨fun node => node.isConfined = true, fun _ => True⟩

theorem confined_lawful : confined.Lawful where
  call callee arguments line given := by simpa [confined, Node.isConfined, Node.allConfined_iff] using given
  assignment name inner value line given := by simpa [confined, Node.isConfined] using given
  conditional condition thenBlock elseBlock line given := by
    simpa [confined, Node.isConfined, Node.allConfined_iff, and_assoc] using given
  loop condition body otherwise line given := by
    simpa [confined, Node.isConfined, Node.allConfined_iff, and_assoc] using given
  returns value line given := by simpa [confined, Node.isConfined] using given

end Discipline

/-- If it is a procedure, then only `returns` strays from its body, and all procedures that it defines are like this. -/
def Value.Confined (value : Value) : Prop :=
  ∀ closure, value = .procedure (.closure closure) →
    (∀ node ∈ closure.body, node.Within (· = .returning)) ∧ ∀ node ∈ closure.body, node.isConfined = true

theorem Value.confined_of_handle? {value : Value} (none : value.handle? = none) : value.Confined := by
  rintro closure rfl
  cases none

theorem Node.confined_definition {name : String} {params : List String} {body : List Node} {site line : Nat}
    (given : (Node.definition name params body site line).isConfined = true) (scope : ScopeId) :
    (Value.procedure (.closure ⟨name, params, body, site, scope⟩)).Confined := by
  simp only [Node.isConfined, Bool.and_eq_true, Bool.not_eq_eq_eq_not, Bool.not_true] at given
  rintro closure ⟨⟩
  refine ⟨Node.within_all fun signal strays => ?_, (Node.allConfined_iff body).mp given.2⟩
  cases signal with
  | returning => rfl
  | breaking => cases given.1.symm.trans strays

namespace Config

/-- Nothing at the bottom stops a signal, and procedures have to stop none but `returns`. -/
structure Sheltered (config : Config) : Prop where
  sound : config.Sound ∅ (some root)
  within : config.Within (fun _ => False) (· = .returning)
  obeys : config.Obeys .confined .confined
  carries : config.Carries Value.Confined

namespace Sheltered

variable {config next : Config}

theorem step (sheltered : config.Sheltered) (stepped : config.step = .running next) : next.Sheltered := by
  have entered : ∀ closure arguments, config.control = .invoke (.closure closure) arguments →
      (∀ node ∈ closure.body, node.Within (· = .returning)) ∧ ∀ node ∈ closure.body, node.isConfined = true :=
    fun closure arguments given => (sheltered.carries.invoked given).1 closure rfl
  refine ⟨sheltered.sound.step Regime.usual_proper stepped, ?_, ?_, ?_⟩
  · exact Within.step (fun closure arguments given => (entered closure arguments given).1) sheltered.within stepped
  · exact Obeys.step Discipline.confined_lawful Discipline.confined_lawful
      (fun closure arguments given => (entered closure arguments given).2) sheltered.obeys stepped
  · refine sheltered.carries.step (fun value => Value.confined_of_handle?) ?_ sheltered.sound stepped
    intro name params body site line scope given
    have obeys := sheltered.obeys.1
    have everywhere : prevailing .confined .confined config.stack = .confined := by
      unfold prevailing
      split <;> rfl
    rw [given, everywhere] at obeys
    exact Node.confined_definition obeys scope

/-- No procedure at work meets a `break` that it cannot stop. -/
theorem never_strayBreak (sheltered : config.Sheltered) (trail : List Activity) :
    config.control ≠ .escape (.failed ⟨.strayBreak, trail⟩) := by
  intro raised
  have within := sheltered.within.1
  rw [raised] at within
  cases within rfl

end Sheltered
end Config

/-- With no frame left there is nothing but the base to stop a signal. -/
theorem Config.Within.finished {base inner : Signal → Prop} {config : Config} (within : config.Within base inner)
    {escape : Escape} {after : Session} (finished : config.stepUnder .usual = .finished (.error escape) after) :
    escape.Within inner base := by
  have control : config.control = .escape escape := congrArg Config.control (Config.finished_atop [] finished)
  obtain ⟨empty, _⟩ := step_finished finished
  have given := within.1
  rw [control, empty] at given
  exact given

namespace Session

/-- The scopes are in order, and no procedure lets a `break` out. -/
structure Sheltered (session : Session) : Prop where
  hosts : session.arena.Hosts ∅ (some root) []
  bound : ∀ id entry, session.arena.Live id → session.arena.Binds id entry → entry.2.Confined

theorem sheltered_start (streams : Streams) (filter : Filter) : (Session.start streams filter).Sheltered := by
  refine ⟨hosts_start streams filter, ?_⟩
  intro id entry _ binds
  rw [arena_start] at binds
  rcases binds.of_defineAll with ⟨_, member⟩ | ⟨scope, found, member⟩
  · obtain ⟨builtin, _, rfl⟩ := List.mem_map.mp member
    exact Value.confined_of_handle? rfl
  · obtain ⟨_ | _⟩ := id <;> cases found
    cases member

theorem Sheltered.begin {session : Session} (sheltered : session.Sheltered) {program : List Node}
    (placed : Node.WellPlaced program) :
    Config.Sheltered ⟨.block (session.load program).1 root, [], (session.load program).2⟩ := by
  have numbered := placed.numberAll session.sites
  refine ⟨Moment.Sound.begin_run sheltered.hosts program, ⟨Node.within_all fun signal strays => ?_, trivial⟩,
    ⟨(Node.allConfined_iff _).mp numbered.2, trivial⟩, ⟨fun value member => absurd member List.not_mem_nil, ?_⟩⟩
  · cases (numbered.1 signal).symm.trans strays
  · exact sheltered.bound

theorem Sheltered.run {session after : Session} (sheltered : session.Sheltered) {program : List Node}
    (placed : Node.WellPlaced program) {fuel : Nat} {escape : Escape}
    (ran : session.run fuel program = some (.error escape, after)) :
    ∃ failure, escape = .failed failure ∧ failure.cause ≠ .strayBreak := by
  obtain ⟨last, shelter, finished⟩ :=
    Config.run_invariant (fun _ _ sheltered stepped => Config.Sheltered.step sheltered stepped) (sheltered.begin placed) ran
  have within := shelter.within.finished finished
  cases escape with
  | broke | returned value => exact within.elim
  | failed failure => exact ⟨failure, rfl, fun same => by cases within same⟩

theorem Sheltered.execute {session after : Session} (sheltered : session.Sheltered) {source : Source} {program : List Node}
    (read : source.program.result = .ok program) (placed : Node.WellPlaced program) {fuel : Nat} {error : ProgramError}
    (ran : session.execute fuel source = some (.error error, after)) :
    ∃ failure, error = .failed failure ∧ failure.cause ≠ .strayBreak := by
  let noted := (session.noteAll source.program.events).note (.programStarted source.name program.length)
  have begun : noted.Sheltered := ⟨sheltered.hosts, sheltered.bound⟩
  simp only [Session.execute, read] at ran
  obtain ⟨⟨outcome, final⟩, ended, rest⟩ := Option.bind_eq_some_iff.mp ran
  cases outcome with
  | ok value => cases rest
  | error escape =>
    obtain ⟨failure, rfl, other⟩ := begun.run placed ended
    cases rest
    exact ⟨failure, rfl, other⟩

/-- Whatever a session's procedures do, a signal with which an evaluation ends is one that what is evaluated lets out. -/
theorem run_signals {session after : Session} {control : Control} {allowed : Signal → Prop}
    (within : control.Within (fun _ => True) allowed) {fuel : Nat} {escape : Escape}
    (ran : Config.run fuel ⟨control, [], session⟩ = some (.error escape, after)) :
    escape.Within (fun _ => True) allowed := by
  have begun : Config.Within allowed (fun _ => True) ⟨control, [], session⟩ := ⟨within, trivial⟩
  obtain ⟨last, within, finished⟩ :=
    Config.run_invariant (fun _ _ => Within.step fun _ _ _ _ _ _ _ => trivial) begun ran
  exact within.finished finished

end Session

/-- A well-placed program, run in a new session, never ends with a signal, and at no point of it does a procedure fail
because of a `break`; so a source that holds such a program is not stopped by a stray signal. In any session, an evaluation
ends with a signal only if it strays from the node, and an invocation never does. -/
theorem signals_well_placed :
    (∀ program, Node.WellPlaced program → ∀ streams filter fuel,
      (∀ config ∈ Config.course fuel ⟨.block ((Session.start streams filter).load program).1 root, [],
          ((Session.start streams filter).load program).2⟩,
        ∀ trail, config.control ≠ .escape (.failed ⟨.strayBreak, trail⟩)) ∧
      ∀ escape after, (Session.start streams filter).run fuel program = some (.error escape, after) →
        ∃ failure, escape = .failed failure ∧ failure.cause ≠ .strayBreak) ∧
    (∀ source program, source.program.result = .ok program → Node.WellPlaced program →
      ∀ streams filter fuel error after, (Session.start streams filter).execute fuel source = some (.error error, after) →
        ∃ failure, error = .failed failure ∧ failure.cause ≠ .strayBreak) ∧
    (∀ session node scope fuel escape after,
      Config.run fuel ⟨.eval node scope, [], session⟩ = some (.error escape, after) →
      (escape = .broke → node.strays .breaking = true) ∧
        ∀ value, escape = .returned value → node.strays .returning = true) ∧
    ∀ (session : Session) procedure arguments fuel escape after,
      session.invoke fuel procedure arguments = some (.error escape, after) → ∃ failure, escape = .failed failure := by
  refine ⟨?_, ?_, ?_, ?_⟩
  · intro program placed streams filter fuel
    have sheltered := Session.sheltered_start streams filter
    refine ⟨fun config passed => ?_, fun escape after ran => sheltered.run placed ran⟩
    exact (Config.course_invariant (fun _ _ => Config.Sheltered.step) (sheltered.begin placed) config passed).never_strayBreak
  · intro source program read placed streams filter fuel error after ran
    exact (Session.sheltered_start streams filter).execute read placed ran
  · intro session node scope fuel escape after ran
    have lets : Control.Within (fun _ => True) (fun signal => node.strays signal = true) (.eval node scope) :=
      fun _ strays => strays
    have within := Session.run_signals lets ran
    constructor
    · rintro rfl
      exact within
    · rintro value rfl
      exact within
  · intro session procedure arguments fuel escape after ran
    have lets : Control.Within (fun _ => True) (fun _ => False) (.invoke procedure arguments) := trivial
    have within := Session.run_signals lets ran
    cases escape with
    | broke | returned value => exact within.elim
    | failed failure => exact ⟨failure, rfl⟩

set_option maxRecDepth 20000 in
/-- A `break` in the otherwise block of a loop stops the loop around it; one inside a procedure stops the procedure's own
loop, and `returns` leaves the loop and the procedure. -/
theorem signals_well_placed_nested :
    ∃ source program, source = Source.mk "nested"
        [some "by first of limit we mean", some "  while true", some "    if the limit", some "      returns true",
          some "    break", some "while true", some "  while false", some "    first of true", some "  otherwise",
          some "    break", some "first of true"] ∧
      source.program.result = .ok program ∧ Node.WellPlaced program ∧
      ∀ fuel error after, (Session.start (.ofInput []) .silent).execute fuel source = some (.error error, after) →
        ∃ failure, error = .failed failure ∧ failure.cause ≠ .strayBreak := by
  have read : ∃ program, (Source.mk "nested"
      [some "by first of limit we mean", some "  while true", some "    if the limit", some "      returns true",
        some "    break", some "while true", some "  while false", some "    first of true", some "  otherwise",
        some "    break", some "first of true"]).program.result = .ok program ∧ Node.WellPlaced program :=
    ⟨[.definition "first" ["limit"]
        [.loop (.literal (.boolean true) 2)
          [.conditional (.identifier "limit" 3) [.returns (.literal (.boolean true) 4) 4] [] 3, .breaks 5] [] 2] 0 1,
      .loop (.literal (.boolean true) 6)
        [.loop (.literal (.boolean false) 7) [.call (.identifier "first" 8) [.literal (.boolean true) 8] 8]
          [.breaks 10] 7] [] 6,
      .call (.identifier "first" 11) [.literal (.boolean true) 11] 11], by cbv, by decide⟩
  obtain ⟨program, read, placed⟩ := read
  exact ⟨_, program, rfl, read, placed, signals_well_placed.2.1 _ program read placed _ _⟩

end Parlance
