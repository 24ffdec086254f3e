import Parlance.Proofs.Machine.Sequence
import Parlance.Proofs.Machine.Signals

/-! The trail of a failure is the path from the node that was evaluated down to the node where the failure started: one
activity for each node on the way, and one for each statement of a procedure that was at work. -/
namespace Parlance

/-- What a node is doing while a frame of it waits. -/
def Frame.activity? : Frame → Option Activity
  | .next .. | .body .. => none
  | .head place .. => some ⟨place, "evaluating head expression"⟩
  | .argument place _ done .. => some ⟨place, s!"getting the value of argument {done.length + 1}"⟩
  | .invoking place procedure => some ⟨place, s!"invoking {procedure.describe}"⟩
  | .assign place name _ => some ⟨place, s!"computing the value of '{name}'"⟩
  | .test place .. => some ⟨place, "evaluating the condition"⟩
  | .branch place true => some ⟨place, "running the branch taken"⟩
  | .branch place false => some ⟨place, "running the otherwise branch"⟩
  | .loopTest loop .. => some ⟨loop.place, "evaluating the loop condition"⟩
  | .loopBody loop .. => some ⟨loop.place, "running the loop body"⟩
  | .loopElse loop => some ⟨loop.place, "running the otherwise block"⟩
  | .give place => some ⟨place, "computing the returned value"⟩

/-- The scope a procedure works in, and the session it begins with. -/
def Session.entered (session : Session) (closure : Closure) (arguments : List Value) : ScopeId × Session :=
  let (own, opened) := session.openScope closure.scope
  (own, (opened.defineAll own (closure.params.zip arguments)).note (.invoking closure.name own))

namespace Config

/-! ### Where a failure starts -/

/-- A node fails by itself, all of whose parts that were evaluated have values. The session here, and below, is the one in
which the node's evaluation has been noted. -/
inductive Raises (scope : ScopeId) : Node → Session → Fault → Prop
  | unbound {name : String} {line : Nat} {session : Session}
      (unknown : session.lookup scope name = none) :
      Raises scope (.identifier name line) session (.unknownName name)
  | target {target value : Node} {line : Nat} {session : Session} (other : ∀ name own, target ≠ .identifier name own) :
      Raises scope (.assignment target value line) session (.badTarget target.label)
  | uncallable {callee : Node} {arguments : List Node} {line : Nat} {session middle after : Session} {head : Value}
      {values : List Value}
      (called : Ends ⟨.eval callee scope, [], session⟩ (.ok head) middle)
      (given : Completes scope middle arguments values after) (other : ∀ procedure, head ≠ .procedure procedure) :
      Raises scope (.call callee arguments line) session
        (.badCall s!"{head.describe} is a {head.kind}, not a procedure, so it can not be invoked")

/-- The evaluation of a node comes to the evaluation of a part of it, in a later session and with something to do. -/
inductive Comes (scope : ScopeId) : Node → Session → Node → Session → String → Prop
  | callee {callee : Node} {arguments : List Node} {line : Nat} {session : Session} :
      Comes scope (.call callee arguments line) session callee session
        "evaluating head expression"
  | argument {callee argument : Node} {before rest : List Node} {line : Nat} {session middle later : Session} {head : Value}
      {values : List Value}
      (called : Ends ⟨.eval callee scope, [], session⟩ (.ok head) middle)
      (given : Completes scope middle before values later) :
      Comes scope (.call callee (before ++ argument :: rest) line) session argument later
        s!"getting the value of argument {before.length + 1}"
  | assigned {name : String} {own line : Nat} {value : Node} {session : Session} :
      Comes scope (.assignment (.identifier name own) value line) session value session
        s!"computing the value of '{name}'"
  | condition {condition : Node} {thenBlock elseBlock : List Node} {line : Nat} {session : Session} :
      Comes scope (.conditional condition thenBlock elseBlock line) session condition session
        "evaluating the condition"
  | taken {condition statement : Node} {before rest elseBlock : List Node} {line : Nat} {session middle later : Session}
      {value : Value} {values : List Value}
      (tested : Ends ⟨.eval condition scope, [], session⟩ (.ok value) middle) (truthy : value.isTruthy = true)
      (passed : Completes scope middle before values later) :
      Comes scope (.conditional condition (before ++ statement :: rest) elseBlock line) session statement later
        "running the branch taken"
  | otherwise {condition statement : Node} {thenBlock before rest : List Node} {line : Nat} {session middle later : Session}
      {value : Value} {values : List Value}
      (tested : Ends ⟨.eval condition scope, [], session⟩ (.ok value) middle) (falsy : value.isTruthy = false)
      (passed : Completes scope middle before values later) :
      Comes scope (.conditional condition thenBlock (before ++ statement :: rest) line) session statement later
        "running the otherwise branch"
  | loopCondition {condition : Node} {body otherwise : List Node} {line count : Nat} {session later : Session}
      (turns : Turns ⟨condition, body, otherwise, line⟩ scope count session later) :
      Comes scope (.loop condition body otherwise line) session condition later "evaluating the loop condition"
  | loopBody {condition statement : Node} {before rest otherwise : List Node} {line count : Nat}
      {session begun middle later : Session} {value : Value} {values : List Value}
      (turns : Turns ⟨condition, before ++ statement :: rest, otherwise, line⟩ scope count session begun)
      (tested : Ends ⟨.eval condition scope, [], begun⟩ (.ok value) middle) (truthy : value.isTruthy = true)
      (passed : Completes scope middle before values later) :
      Comes scope (.loop condition (before ++ statement :: rest) otherwise line) session statement later
        "running the loop body"
  | loopOtherwise {condition statement : Node} {body before rest : List Node} {line count : Nat}
      {session begun middle later : Session} {value : Value} {values : List Value}
      (turns : Turns ⟨condition, body, before ++ statement :: rest, line⟩ scope count session begun)
      (tested : Ends ⟨.eval condition scope, [], begun⟩ (.ok value) middle) (falsy : value.isTruthy = false)
      (passed : Completes scope (middle.note (.loopFinished line count)) before values later) :
      Comes scope (.loop condition body (before ++ statement :: rest) line) session statement later
        "running the otherwise block"
  | returned {value : Node} {line : Nat} {session : Session} :
      Comes scope (.returns value line) session value session "computing the returned value"

/-- A call has found a procedure and the values to give it. -/
inductive Invokes (scope : ScopeId) : Node → Session → Procedure → List Value → Session → Prop
  | call {callee : Node} {arguments : List Node} {line : Nat} {session middle after : Session} {procedure : Procedure}
      {values : List Value}
      (called : Ends ⟨.eval callee scope, [], session⟩ (.ok (.procedure procedure)) middle)
      (given : Completes scope middle arguments values after) :
      Invokes scope (.call callee arguments line) session procedure values after

/-- A procedure comes to a statement of its body, in its own scope. -/
inductive Works (closure : Closure) (arguments : List Value) (session : Session) : Node → ScopeId → Session → Prop
  | reaches {before rest : List Node} {statement : Node} {values : List Value} {later : Session}
      (count : arguments.length = closure.params.length) (split : closure.body = before ++ statement :: rest)
      (passed : Completes (session.entered closure arguments).1 (session.entered closure arguments).2 before values later) :
      Works closure arguments session statement (session.entered closure arguments).1 later

/-- An invocation fails by itself. -/
inductive Refuses : Procedure → List Value → Session → Fault → Prop
  | builtin {builtin : Builtin} {arguments : List Value} {session : Session} {cause : Fault}
      (count : builtin.arity.allows arguments.length = true)
      (failed : (session.act builtin.action arguments).1 = .error cause) :
      Refuses (.builtin builtin) arguments session cause
  | builtinCount {builtin : Builtin} {arguments : List Value} {session : Session}
      (count : builtin.arity.allows arguments.length = false) :
      Refuses (.builtin builtin) arguments session
        (.badCall s!"'{builtin.name}' expects {builtin.arity.describe}, but got {arguments.length}")
  | closureCount {closure : Closure} {arguments : List Value} {session : Session}
      (count : arguments.length ≠ closure.params.length) :
      Refuses (.closure closure) arguments session
        (.badCall s!"'{closure.name}' expects {(Arity.exact closure.params.length).describe}, but got {arguments.length}")
  | strayBreak {closure : Closure} {arguments : List Value} {session later after : Session} {statement : Node}
      {own : ScopeId} (works : Works closure arguments session statement own later)
      (broke : Ends ⟨.eval statement own, [], later⟩ (.error .broke) after) :
      Refuses (.closure closure) arguments session .strayBreak

/-- The path of a failure. It has no activity at the node where it starts, and one at every node that it passes. -/
inductive Fails : Node → ScopeId → Session → Fault → List Activity → Prop
  | raised {node : Node} {scope : ScopeId} {session : Session} {cause : Fault} (raises : Raises scope node session cause) :
      Fails node scope session cause []
  | passed {node part : Node} {scope : ScopeId} {session later : Session} {doing : String} {cause : Fault}
      {trail : List Activity} (comes : Comes scope node session part later doing)
      (fails : Fails part scope (later.note (.evaluating part)) cause trail) :
      Fails node scope session cause (⟨node.place, doing⟩ :: trail)
  | refused {node : Node} {scope : ScopeId} {session later : Session} {procedure : Procedure} {arguments : List Value}
      {cause : Fault} (invokes : Invokes scope node session procedure arguments later)
      (refuses : Refuses procedure arguments later cause) :
      Fails node scope session cause [⟨node.place, s!"invoking {procedure.describe}"⟩]
  | worked {node statement : Node} {scope own : ScopeId} {session later inner : Session} {closure : Closure}
      {arguments : List Value} {cause : Fault} {trail : List Activity}
      (invokes : Invokes scope node session (.closure closure) arguments later)
      (works : Works closure arguments later statement own inner)
      (fails : Fails statement own (inner.note (.evaluating statement)) cause trail) :
      Fails node scope session cause
        (⟨node.place, s!"invoking {(Procedure.closure closure).describe}"⟩ ::
          ⟨statement.place, s!"running procedure '{closure.name}'"⟩ :: trail)

/-! ### Every failure has its path -/

section Forward

variable {node part : Node} {scope : ScopeId} {session later after last : Session} {cause : Fault} {trail : List Activity}
  {activity : Activity} {doing : String} {frame : Frame} {fuel limit : Nat}

theorem run_fault {fault : Fault}
    (ran : run fuel (Config.fault fault [] session) = some (.error (.failed ⟨cause, trail⟩), after)) :
    trail = [] ∧ cause = fault := by
  have same := (run_outcome (show run fuel ⟨Outcome.control (.error (.ofFault fault)), [], session⟩ = _ from ran)).1
  exact (Failure.mk.inj (Escape.failed.inj (Except.error.inj same))).symm

end Forward

/-! ### Every path is that of a failure -/

section Backward

variable {node part statement : Node} {scope own : ScopeId} {session later after last : Session} {cause : Fault}
  {trail : List Activity} {activity : Activity} {doing : String} {frame : Frame} {arguments : List Value}

theorem ends_fault (fault : Fault) (session : Session) :
    Ends (Config.fault fault [] session) (.error (.failed ⟨fault, []⟩)) session :=
  (ends_control (.error (.ofFault fault)) session).mpr ⟨rfl, rfl⟩

theorem ends_unwind (waits : frame.activity? = some activity) :
    Ends (unwind .usual (.failed ⟨cause, trail⟩) frame [] session) (.error (.failed ⟨cause, activity :: trail⟩))
      session := by
  have ended : Ends ⟨.escape (.failed ⟨cause, activity :: trail⟩), [], session⟩ _ session :=
    (ends_control (.error (.failed ⟨cause, activity :: trail⟩)) session).mpr ⟨rfl, rfl⟩
  cases frame with
  | next | body => cases waits
  | branch place taken => cases taken <;> cases waits <;> exact ended
  | _ =>
    cases waits
    exact ended

theorem ends_waiting {control : Control} (waits : frame.activity? = some activity)
    (ends : Ends ⟨control, [], session⟩ (.error (.failed ⟨cause, trail⟩)) after) :
    Ends ⟨control, [frame], session⟩ (.error (.failed ⟨cause, activity :: trail⟩)) after :=
  (ends_received ends).mpr (ends_unwind waits)

theorem Comes.ends (comes : Comes scope node session part later doing)
    (ends : Ends ⟨.eval part scope, [], later⟩ (.error (.failed ⟨cause, trail⟩)) after) :
    Ends (eval node scope [] session) (.error (.failed ⟨cause, ⟨node.place, doing⟩ :: trail⟩)) after := by
  cases comes with
  | callee | assigned | condition | returned => exact ends_waiting rfl ends
  | argument called given =>
    refine (ends_received called).mpr ((ends_call_past given _).mpr ?_)
    rw [← given.length_eq, ← List.length_reverse]
    exact ends_waiting rfl ends
  | taken tested truthy passed =>
    refine (ends_received tested).mpr ?_
    rw [receive, resume, if_pos truthy]
    exact ends_waiting rfl (ends_block_at passed ends)
  | otherwise tested falsy passed =>
    refine (ends_received tested).mpr ?_
    rw [receive, resume, if_neg (ne_true_of_eq_false falsy)]
    exact ends_waiting rfl (ends_block_at passed ends)
  | loopCondition turns => exact turns.ends.mpr (ends_waiting rfl ends)
  | loopBody turns tested truthy passed =>
    refine turns.ends.mpr ((ends_received tested).mpr ?_)
    rw [receive, resume, if_pos truthy]
    exact ends_waiting rfl (ends_block_at passed ends)
  | loopOtherwise turns tested falsy passed =>
    refine turns.ends.mpr ((ends_received tested).mpr ?_)
    rw [receive, resume, if_neg (ne_true_of_eq_false falsy)]
    exact ends_waiting rfl (ends_block_at passed ends)

theorem Invokes.ends {procedure : Procedure} (invokes : Invokes scope node session procedure arguments later)
    (ends : Ends ⟨.invoke procedure arguments, [], later⟩ (.error (.failed ⟨cause, trail⟩)) after) :
    Ends (eval node scope [] session)
      (.error (.failed ⟨cause, ⟨node.place, s!"invoking {procedure.describe}"⟩ :: trail⟩)) after := by
  cases invokes with
  | @call callee nodes line _ _ _ _ _ called given =>
    refine (ends_received called).mpr ?_
    have invoked := @ends_waiting _ _ _ _ _ (.invoking ⟨"procedure", line⟩ procedure) _ rfl ends
    rw [← List.append_nil nodes, receive, resume, ends_call_past given]
    rw [← List.reverse_reverse arguments] at invoked
    exact invoked

/-- A procedure gives what comes of a statement of its body to the frame that waits there. -/
theorem Works.ends {closure : Closure} {result : Outcome} (works : Works closure arguments session statement own later)
    (ends : Ends ⟨.eval statement own, [], later⟩ result last) : ∃ rest, ∀ outcome after,
      Ends ⟨.invoke (.closure closure) arguments, [], session⟩ outcome after ↔
        Ends (receive (.body closure.name statement.place rest own) result last) outcome after := by
  cases works with
  | @reaches before rest _ _ _ count split passed =>
    refine ⟨rest, fun outcome after => ?_⟩
    rw [ends_running rfl, invoke, if_pos count, split]
    exact (Succession.body closure.name _).ends_at [] passed ends

theorem Refuses.ends {procedure : Procedure} (refuses : Refuses procedure arguments session cause) :
    ∃ after, Ends ⟨.invoke procedure arguments, [], session⟩ (.error (.failed ⟨cause, []⟩)) after := by
  cases refuses with
  | @builtin builtin _ _ _ count failed =>
    rcases acted : Regime.usual.act session builtin.action arguments with ⟨result, after⟩
    obtain rfl : result = .error cause := (congrArg Prod.fst acted).symm.trans failed
    refine ⟨after, (ends_running rfl).mpr ?_⟩
    rw [invoke, if_pos count, acted]
    exact ends_fault cause after
  | builtinCount count =>
    refine ⟨session, (ends_running rfl).mpr ?_⟩
    rw [invoke, if_neg (ne_true_of_eq_false count)]
    exact ends_fault _ session
  | closureCount count =>
    refine ⟨session, (ends_running rfl).mpr ?_⟩
    rw [invoke, if_neg count]
    exact ends_fault _ session
  | strayBreak works broke =>
    obtain ⟨rest, received⟩ := works.ends broke
    exact ⟨_, (received _ _).mpr (ends_fault .strayBreak _)⟩

theorem Raises.ends (raises : Raises scope node session cause) :
    ∃ after, Ends (eval node scope [] session) (.error (.failed ⟨cause, []⟩)) after := by
  cases raises with
  | unbound unknown =>
    refine ⟨session, ?_⟩
    rw [eval, unknown]
    exact ends_fault _ session
  | @target target value line _ other =>
    refine ⟨session, ?_⟩
    cases target with
    | identifier name own => exact absurd rfl (other name own)
    | _ => exact ends_fault _ session
  | @uncallable callee nodes line _ _ after head values called given other =>
    refine ⟨after, (ends_received called).mpr ?_⟩
    rw [← List.append_nil nodes, receive, resume, ends_call_past given]
    cases head with
    | procedure procedure => exact absurd rfl (other procedure)
    | _ => exact ends_fault _ after

theorem Fails.ends (fails : Fails node scope session cause trail) :
    ∃ after, Ends (eval node scope [] session) (.error (.failed ⟨cause, trail⟩)) after := by
  induction fails with
  | raised raises => exact raises.ends
  | passed comes _ ih =>
    obtain ⟨after, ended⟩ := ih
    exact ⟨after, comes.ends ((ends_running rfl).mpr ended)⟩
  | refused invokes refuses =>
    obtain ⟨after, ended⟩ := refuses.ends
    exact ⟨after, invokes.ends ended⟩
  | worked invokes works _ ih =>
    obtain ⟨last, ended⟩ := ih
    obtain ⟨rest, received⟩ := works.ends ((ends_running rfl).mpr ended)
    exact ⟨_, invokes.ends ((received _ _).mpr ((ends_control (.error (.failed _)) _).mpr ⟨rfl, rfl⟩))⟩

end Backward

end Config
end Parlance
