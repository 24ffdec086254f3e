import Parlance.Proofs.Machine.Answers
import Parlance.Proofs.Node.Utters
import Parlance.Proofs.WellFormedRuns

/-! The output keeps its lines. Whatever sources a session executes and whatever it is given to read, no text that it holds
and no name of a procedure has a line feed in it; so `show` writes one line, and `debug` one for each of its arguments. -/
namespace Parlance

open Arena
open Text (Unbroken)

/-! ### Values -/

namespace Value

/-- The value is on one line, and if it is a procedure, so is all that its body can give or define. -/
structure Lined (value : Value) : Prop where
  unbroken : value.Unbroken
  body : ∀ closure, value = .procedure (.closure closure) → ∀ node ∈ closure.body, node.Utters Text.Unbroken

theorem lined_of_isProcedure {value : Value} (data : value.isProcedure = false) (unbroken : value.Unbroken) :
    value.Lined := by
  refine ⟨unbroken, fun closure same => ?_⟩
  rw [same] at data
  cases data

theorem lined_of_isScalar {value : Value} (scalar : value.isScalar = true) : value.Lined := by
  refine lined_of_isProcedure (isProcedure_of_isScalar scalar) ?_
  cases value with
  | text | procedure => cases scalar
  | nothing | boolean | number => trivial

end Value

def Streams.Lined (streams : Streams) : Prop :=
  ∀ line, some line ∈ streams.input → Unbroken line

namespace Action

theorem input_answer (streams : Streams) : (answer streams).2.input <:+ streams.input := by
  obtain ⟨output, error, input⟩ := streams
  rcases input with _ | ⟨_ | line, rest⟩
  · exact List.suffix_refl _
  · exact List.suffix_cons _ _
  · exact List.suffix_cons _ _

/-- A builtin takes at most a line from the input, and adds none. -/
theorem input_run (action : Action) (streams : Streams) (arguments : List Value) :
    (action.run streams arguments).2.input <:+ streams.input := by
  cases action with
  | display | inspect => exact List.suffix_refl _
  | ask =>
    cases arguments with
    | nil => exact input_answer streams
    | cons prompt rest =>
      have still := input_writing streams prompt.describe .nothing
      simp only [run]
      split
      · rename_i wrote
        rw [wrote] at still
        exact still ▸ input_answer _
      · rename_i wrote
        rw [wrote] at still
        exact still ▸ List.suffix_refl _
  | number =>
    simp only [run]
    split <;> exact List.suffix_refl _
  | operate operator =>
    simp only [run]
    split <;> exact List.suffix_refl _

theorem lined_run {action : Action} {streams : Streams} {arguments : List Value} {value : Value} (input : streams.Lined)
    (given : ∀ argument ∈ arguments, argument.Lined) (acted : (action.run streams arguments).1 = .ok value) :
    value.Lined := by
  rcases run_source acted with passed | scalar | ⟨line, heard, rfl⟩
  · exact given value passed
  · exact Value.lined_of_isScalar scalar
  · exact Value.lined_of_isProcedure rfl (input line heard)

end Action

/-! ### Runs -/

def Discipline.unbroken : Discipline :=
  ⟨(·.Utters Unbroken), fun _ => True⟩

theorem Discipline.unbroken_lawful : unbroken.Lawful where
  call callee arguments line obeyed := by
    cases obeyed with
    | call _ head given => exact ⟨head, given⟩
  assignment name inner value line obeyed := by
    cases obeyed with
    | assignment _ _ given => exact ⟨trivial, given⟩
  conditional condition thenBlock elseBlock line obeyed := by
    cases obeyed with
    | conditional _ test taken otherwise => exact ⟨test, taken, otherwise⟩
  loop condition body otherwise line obeyed := by
    cases obeyed with
    | loop _ test inside after => exact ⟨test, inside, after⟩
  returns value line obeyed := by
    cases obeyed with
    | returns _ given => exact given

namespace Config

structure Lined (config : Config) : Prop where
  sound : config.Sound ∅ (some root)
  obeys : config.Obeys .unbroken .unbroken
  carries : config.Carries Value.Lined
  input : config.session.streams.Lined

namespace Lined

variable {config next : Config}

theorem evaluated (lined : config.Lined) {node : Node} {scope : ScopeId} (given : config.control = .eval node scope) :
    node.Utters Unbroken := by
  have obeyed := lined.obeys.1
  rw [given, prevailing_same] at obeyed
  exact obeyed

theorem made (lined : config.Lined) {value : Value} (made : Made .usual config value) : value.Lined := by
  cases made with
  | nothing same => exact same ▸ Value.lined_of_isScalar rfl
  | literal literal line scope given same =>
    subst same
    cases lined.evaluated given with
    | literal _ fits =>
      cases literal with
      | text t => exact Value.lined_of_isProcedure rfl (fits t rfl)
      | nothing | boolean | number => exact Value.lined_of_isScalar rfl
  | result builtin arguments given acted => exact Action.lined_run lined.input (lined.carries.invoked given).2 acted

theorem defined (lined : config.Lined) {name : String} {params : List String} {body : List Node} {site line : Nat}
    {scope : ScopeId} (given : config.control = .eval (.definition name params body site line) scope) :
    Value.Lined (.procedure (.closure ⟨name, params, body, site, scope⟩)) := by
  cases lined.evaluated given with
  | definition _ _ _ fits inside =>
    refine ⟨fits, fun closure same => ?_⟩
    cases same
    exact inside

theorem step (lined : config.Lined) (stepped : config.step = .running next) : next.Lined where
  sound := lined.sound.step Regime.usual_proper stepped
  obeys := Obeys.step Discipline.unbroken_lawful Discipline.unbroken_lawful
    (fun closure arguments given => (lined.carries.invoked given).1.body closure rfl) lined.obeys stepped
  carries := lined.carries.step_made (fun _ => lined.made) (fun _ _ _ _ _ _ => lined.defined) lined.sound stepped
  input := by
    rcases streams_step stepped with ⟨same, -⟩ | ⟨builtin, arguments, -, -, ran⟩
    · exact same ▸ lined.input
    · intro line member
      rw [ran] at member
      exact lined.input line ((builtin.action.input_run _ arguments).subset member)

end Lined
end Config

/-! ### What is written -/

theorem Action.writing_written {streams : Streams} {text : String} {given value : Value}
    (wrote : (writing streams text given).1 = .ok value) :
    (writing streams text given).2.output.written = streams.output.written ++ text := by
  obtain ⟨⟨written, room⟩, error, input⟩ := streams
  cases room with
  | none => rfl
  | some room =>
    unfold writing Streams.write Sink.write at wrote ⊢
    dsimp only at wrote ⊢
    split
    · rfl
    · rename_i large
      rw [if_neg large] at wrote
      cases wrote

namespace Config

variable {config next : Config} {builtin : Builtin} {arguments : List Value} {value : Value}

theorem step_builtin (given : config.control = .invoke (.builtin builtin) arguments) (stepped : config.step = .running next)
    (ended : next.control = .value value) :
    (builtin.action.run config.session.streams arguments).1 = .ok value ∧
      next.session.streams = (builtin.action.run config.session.streams arguments).2 := by
  obtain ⟨control, stack, session⟩ := config
  cases given
  cases stepped
  by_cases allowed : builtin.arity.allows arguments.length = true
  · refine ⟨?_, streams_invoke allowed stack session⟩
    rw [invoke, if_pos allowed] at ended
    rcases acted : Regime.usual.act session builtin.action arguments with ⟨fault | result, after⟩
    · rw [acted] at ended
      cases ended
    · rw [acted] at ended
      cases ended
      exact congrArg Prod.fst acted
  · rw [invoke, if_neg allowed] at ended
    cases ended

theorem Lined.shows (lined : config.Lined) (given : config.control = .invoke (.builtin builtin) arguments)
    (acts : builtin.action = .display) (stepped : config.step = .running next) (ended : next.control = .value value) :
    ∃ line, Unbroken line ∧
      next.session.streams.output.written = config.session.streams.output.written ++ (line ++ "\n") := by
  obtain ⟨acted, same⟩ := step_builtin given stepped ended
  rw [acts] at acted same
  refine ⟨" ".intercalate (arguments.map Value.describe), Text.unbroken_intercalate (by decide) fun text member => ?_, ?_⟩
  · obtain ⟨argument, passed, rfl⟩ := List.mem_map.mp member
    exact Value.unbroken_describe ((lined.carries.invoked given).2 argument passed).unbroken
  · rw [same]
    exact Action.writing_written acted

/-- What is written out in full is on one line, whatever the value. -/
theorem debugs (given : config.control = .invoke (.builtin builtin) arguments) (acts : builtin.action = .inspect)
    (stepped : config.step = .running next) (ended : next.control = .value value) :
    ∃ lines : List String, lines.length = arguments.length ∧ (∀ line ∈ lines, Unbroken line) ∧
      next.session.streams.output.written =
        config.session.streams.output.written ++ String.join (lines.map (· ++ "\n")) := by
  obtain ⟨acted, same⟩ := step_builtin given stepped ended
  rw [acts] at acted same
  refine ⟨arguments.map Value.inspect, List.length_map _, fun line member => ?_, ?_⟩
  · obtain ⟨argument, -, rfl⟩ := List.mem_map.mp member
    exact argument.unbroken_inspect
  · rw [same, List.map_map]
    exact Action.writing_written acted

end Config

/-! ### Sessions -/

namespace Session

/-- A session that began anew, with any input, and has executed any number of sources. -/
inductive Attained : Session → Prop
  | start (output error : Sink) (bytes : ByteArray) (filter : Filter) :
      Attained (.start ⟨output, error, RawLine.ofBytes bytes⟩ filter)
  | execute {session after : Session} {fuel : Nat} {source : Source} {result : Except ProgramError Value}
      (attained : Attained session) (ran : session.execute fuel source = some (result, after)) : Attained after

structure Lined (session : Session) : Prop where
  hosts : session.arena.Hosts ∅ (some root) []
  bound : ∀ id entry, session.arena.Live id → session.arena.Binds id entry → entry.2.Lined
  input : session.streams.Lined

variable {session after : Session} {source : Source} {program : List Node}

theorem lined_start (output error : Sink) (bytes : ByteArray) (filter : Filter) :
    (Session.start ⟨output, error, RawLine.ofBytes bytes⟩ filter).Lined where
  hosts := hosts_start _ filter
  bound id entry _ binds := by
    obtain ⟨-, builtin, listed, rfl⟩ := binds_start binds
    have named : ∀ builtin ∈ Builtin.table, Unbroken builtin.name := by decide
    refine ⟨named builtin listed, fun closure same => ?_⟩
    cases same
  input _ member := RawLine.unbroken_ofBytes member

theorem Lined.launch (lined : session.Lined) (read : source.program.result = .ok program) :
    (session.launch source program).Lined := by
  let noted := (session.noteAll source.program.events).note (.programStarted source.name program.length)
  have ready : noted.arena.Hosts ∅ (some root) [] := lined.hosts
  have utters := Source.program_utters read
  refine ⟨Moment.Sound.begin_run ready program, ⟨?_, trivial⟩, ⟨fun value member => absurd member List.not_mem_nil,
    lined.bound⟩, lined.input⟩
  exact Node.forall_numberAll (fun node member site => (utters node member).number site) _

end Session

theorem Config.Lined.finish {config : Config} (lined : config.Lined) {outcome : Outcome} {after : Session}
    (stepped : config.step = .finished outcome after) : after.Lined ∧ ∀ value ∈ Outcome.values outcome, value.Lined := by
  obtain ⟨empty, rfl, held⟩ := step_finished stepped
  have hosts := lined.sound.hosts
  rw [empty] at hosts
  exact ⟨⟨hosts, lined.carries.bound, lined.input⟩, held ▸ lined.carries.held⟩

namespace Session

variable {session after : Session} {source : Source} {fuel : Nat} {result : Except ProgramError Value}

theorem Lined.execute (lined : session.Lined) (ran : session.execute fuel source = some (result, after)) :
    after.Lined ∧ (∀ value, result = .ok value → value.Lined) ∧
      ∀ failure, result = .error (.failed failure) → ∀ value ∈ failure.cause.values, value.Lined := by
  cases read : source.program.result with
  | error error =>
    simp only [Session.execute, read, Option.some.injEq, Prod.mk.injEq] at ran
    obtain ⟨rfl, rfl⟩ := ran
    refine ⟨⟨lined.hosts, lined.bound, lined.input⟩, fun value other => ?_, fun failure same => ?_⟩
    · cases other
    · exact absurd (Except.error.inj same ▸ read) (program_not_failed source failure)
  | ok program =>
    rw [execute_launch session fuel read] at ran
    obtain ⟨⟨outcome, final⟩, ended, same⟩ := Option.map_eq_some_iff.mp ran
    obtain ⟨last, here, finished⟩ := Config.run_invariant (fun _ _ => Config.Lined.step) (lined.launch read) ended
    obtain ⟨kept, values⟩ := here.finish finished
    cases same
    refine ⟨kept, fun value given => ?_, fun failure given => ?_⟩
    · cases outcome with
      | ok result =>
        cases given
        exact values _ List.mem_cons_self
      | error => cases given
    · cases outcome with
      | ok result => cases given
      | error escape =>
        cases escape with
        | failed reason =>
          cases given
          exact values
        | broke | returned => cases given

theorem Attained.lined (attained : session.Attained) : session.Lined := by
  induction attained with
  | start output error bytes filter => exact lined_start output error bytes filter
  | execute _ ran lined => exact (lined.execute ran).1

end Session

/-- However many sources a session has executed and whatever the input, no text and no procedure's name in a live scope
has a line feed, nor does any in the hands of an evaluation that is under way, nor any that comes of it. So where `show`
succeeds it writes one line, and where `debug` does, one line for each argument. -/
theorem output_keeps_lines {session : Session} (attained : session.Attained) :
    (∀ id scope entry, session.arena.Live id → session.arena.get? id = some scope → entry ∈ scope.bindings →
      entry.2.Unbroken) ∧
    ∀ (source : Source) fuel,
      (∀ result after, session.execute fuel source = some (result, after) →
        (∀ value, result = .ok value → value.Unbroken) ∧
        ∀ failure, result = .error (.failed failure) → ∀ value ∈ failure.cause.values, value.Unbroken) ∧
      ∀ program, source.program.result = .ok program →
        session.execute fuel source = ((session.launch source program).run fuel).map
          (fun ended => (ended.1.mapError .ofEscape, ended.2)) ∧
        ∀ config ∈ Config.course fuel (session.launch source program),
          (∀ value ∈ config.values, value.Unbroken) ∧
          (∀ id scope entry, config.session.arena.Live id → config.session.arena.get? id = some scope →
            entry ∈ scope.bindings → entry.2.Unbroken) ∧
          ∀ builtin arguments next value, config.control = .invoke (.builtin builtin) arguments →
            config.step = .running next → next.control = .value value →
            (builtin.action = .display → ∃ line, '\n' ∉ line.toList ∧
              next.session.streams.output.written = config.session.streams.output.written ++ (line ++ "\n")) ∧
            (builtin.action = .inspect → ∃ lines : List String, lines.length = arguments.length ∧
              (∀ line ∈ lines, '\n' ∉ line.toList) ∧
              next.session.streams.output.written =
                config.session.streams.output.written ++ String.join (lines.map (· ++ "\n"))) := by
  have lined := attained.lined
  refine ⟨fun id scope entry live found member => (lined.bound id entry live ⟨scope, found, member⟩).unbroken, ?_⟩
  intro source fuel
  refine ⟨fun result after ran => ?_, fun program read => ⟨Session.execute_launch session fuel read, ?_⟩⟩
  · obtain ⟨-, given, blamed⟩ := lined.execute ran
    exact ⟨fun value same => (given value same).unbroken,
      fun failure same value member => (blamed failure same value member).unbroken⟩
  · intro config passed
    have here := Config.course_invariant (fun _ _ => Config.Lined.step) (lined.launch read) config passed
    refine ⟨fun value member => (here.carries.held value member).unbroken, ?_, ?_⟩
    · exact fun id scope entry live found member => (here.carries.bound id entry live ⟨scope, found, member⟩).unbroken
    · exact fun builtin arguments next value given stepped ended =>
        ⟨fun acts => here.shows given acts stepped ended, fun acts => Config.debugs given acts stepped ended⟩

set_option maxRecDepth 20000 in
/-- A line that ends in a carriage return and a line feed is read, and shown with a line feed of its own. -/
theorem output_keeps_lines_answered :
    ∃ session source program, session = Session.start ⟨.unbounded, .unbounded, RawLine.ofBytes "a\r\nb\n".toUTF8⟩ .silent ∧
      source = Source.mk "s" [some "show of ask of"] ∧ session.Attained ∧ source.program.result = .ok program ∧
      ((session.launch source program).run 20).map (·.2.streams.output.written) = some "a\n" ∧
      (∃ config ∈ Config.course 20 (session.launch source program),
        config.control.values.map Value.describe = ["<builtin procedure 'show'>", "a"]) ∧
      ∀ config ∈ Config.course 20 (session.launch source program), (∀ value ∈ config.values, value.Unbroken) ∧
        ∀ arguments next value, config.control = .invoke (.builtin ⟨"show", .any, .display⟩) arguments →
          config.step = .running next → next.control = .value value → ∃ line, '\n' ∉ line.toList ∧
            next.session.streams.output.written = config.session.streams.output.written ++ (line ++ "\n") := by
  have lines : RawLine.ofBytes "a\r\nb\n".toUTF8 = [some "a", some "b"] := by
    rw [RawLine.ofBytes_toUTF8]
    decide +kernel
  have read : (Source.mk "s" [some "show of ask of"]).program.result =
      .ok [.call (.identifier "show" 1) [.call (.identifier "ask" 1) [] 1] 1] := by
    cbv
  have attained : (Session.start ⟨.unbounded, .unbounded, RawLine.ofBytes "a\r\nb\n".toUTF8⟩ .silent).Attained :=
    .start .unbounded .unbounded _ .silent
  have shown := ((output_keeps_lines attained).2 _ 20).2 _ read
  refine ⟨_, _, _, rfl, rfl, attained, read, ?_, ?_, fun config passed => ?_⟩
  · rw [lines]
    decide +kernel
  · rw [lines]
    have used : (Config.course 20 ((Session.start ⟨.unbounded, .unbounded, [some "a", some "b"]⟩ .silent).launch
        (Source.mk "s" [some "show of ask of"]) [.call (.identifier "show" 1) [.call (.identifier "ask" 1) [] 1] 1])).any
        (fun config => config.control.values.map Value.describe == ["<builtin procedure 'show'>", "a"]) = true := by
      decide +kernel
    obtain ⟨config, passed, given⟩ := List.any_eq_true.mp used
    exact ⟨config, passed, eq_of_beq given⟩
  · obtain ⟨held, -, acts⟩ := shown.2 config passed
    exact ⟨held, fun arguments next value given stepped ended => (acts _ arguments next value given stepped ended).1 rfl⟩

end Parlance
