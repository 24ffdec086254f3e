import Parlance.Proofs.ErrorTrail
import Parlance.Proofs.Machine.Course

/-! What a loop does over any number of rounds. A round is a condition that holds and a body that is done; after some number
of them the loop is left in one of five ways. A `break` from a procedure's body is none of these: it comes to the loop as a
failure. -/
namespace Parlance

open Config

namespace Loop

def node (loop : Loop) : Node :=
  .loop loop.condition loop.body loop.otherwise loop.line

/-- The condition holds, and then all of the body is done. -/
def Round (loop : Loop) (scope : ScopeId) (session next : Session) : Prop :=
  ∃ value tested last, Ends ⟨.eval loop.condition scope, [], session⟩ (.ok value) tested ∧ value.isTruthy = true ∧
    Ends ⟨.block loop.body scope, [], tested⟩ (.ok last) next

/-- From the session, this many rounds lead through these moments. -/
structure Rounds (loop : Loop) (scope : ScopeId) (session : Session) (count : Nat) (moments : Nat → Session) : Prop where
  start : moments 0 = session
  round : ∀ i < count, loop.Round scope (moments i) (moments (i + 1))

/-- The loop is over, with no value of its own: its condition does not hold and its otherwise block is done, or its body
comes to a `break`. -/
inductive Finishes (loop : Loop) (scope : ScopeId) (count : Nat) (session : Session) : Session → Prop
  | exhausted {value last : Value} {tested after : Session}
      (test : Ends ⟨.eval loop.condition scope, [], session⟩ (.ok value) tested) (falsy : value.isTruthy = false)
      (done : Ends ⟨.block loop.otherwise scope, [], tested.note (.loopFinished loop.line count)⟩ (.ok last) after) :
      Finishes loop scope count session after
  | broken {value : Value} {tested stopped : Session}
      (test : Ends ⟨.eval loop.condition scope, [], session⟩ (.ok value) tested) (truthy : value.isTruthy = true)
      (broke : Ends ⟨.block loop.body scope, [], tested⟩ (.error .broke) stopped) :
      Finishes loop scope count session (stopped.note (.loopBroken loop.line count))

/-- Something in the loop escapes that the loop does not stop. -/
inductive Escapes (loop : Loop) (scope : ScopeId) (count : Nat) (session : Session) : Escape → Session → Prop
  | condition {escape : Escape} {after : Session}
      (test : Ends ⟨.eval loop.condition scope, [], session⟩ (.error escape) after) :
      Escapes loop scope count session (escape.passing loop.place "evaluating the loop condition") after
  | body {value : Value} {escape : Escape} {tested after : Session}
      (test : Ends ⟨.eval loop.condition scope, [], session⟩ (.ok value) tested) (truthy : value.isTruthy = true)
      (escaped : Ends ⟨.block loop.body scope, [], tested⟩ (.error escape) after) (other : escape ≠ .broke) :
      Escapes loop scope count session (escape.passing loop.place "running the loop body") after
  | otherwise {value : Value} {escape : Escape} {tested after : Session}
      (test : Ends ⟨.eval loop.condition scope, [], session⟩ (.ok value) tested) (falsy : value.isTruthy = false)
      (escaped : Ends ⟨.block loop.otherwise scope, [], tested.note (.loopFinished loop.line count)⟩ (.error escape)
        after) :
      Escapes loop scope count session (escape.passing loop.place "running the otherwise block") after

/-- How a loop is left after its last round. -/
def Leaves (loop : Loop) (scope : ScopeId) (count : Nat) (session : Session) : Outcome → Session → Prop
  | .ok value, after => value = .nothing ∧ loop.Finishes scope count session after
  | .error escape, after => loop.Escapes scope count session escape after

variable {loop : Loop} {scope : ScopeId} {count : Nat} {session begun after : Session} {outcome : Outcome}

/-! ### Rounds and turns -/

theorem Rounds.turns {moments : Nat → Session} (rounds : loop.Rounds scope session count moments) :
    Turns loop scope count session (moments count) := by
  induction count with
  | zero =>
    rw [rounds.start]
    exact .start session
  | succ count ih =>
    obtain ⟨value, tested, last, test, truthy, fuel, ran⟩ := rounds.round count (Nat.lt_succ_self count)
    have earlier := ih ⟨rounds.start, fun i below => rounds.round i (Nat.lt_succ_of_lt below)⟩
    rcases run_block ran with ⟨_, values, -, completes⟩ | ⟨_, _, _, _, _, _, _, other, _⟩
    · exact earlier.turn test truthy completes
    · cases other

theorem rounds_of_turns (turns : Turns loop scope count session begun) :
    ∃ moments, loop.Rounds scope session count moments ∧ moments count = begun := by
  induction turns with
  | start session => exact ⟨fun _ => session, ⟨rfl, fun i below => absurd below i.not_lt_zero⟩, rfl⟩
  | @turn count session begun tested after value values _ test truthy worked ih =>
    obtain ⟨moments, rounds, rfl⟩ := ih
    obtain ⟨last, done⟩ := worked.ends_block
    refine ⟨fun i => if i ≤ count then moments i else after, ⟨?_, fun i below => ?_⟩, ?_⟩
    · exact (if_pos count.zero_le).trans rounds.start
    · rcases Nat.lt_or_eq_of_le (Nat.le_of_lt_succ below) with earlier | rfl
      · rw [if_pos (Nat.le_of_lt earlier), if_pos (Nat.succ_le_of_lt earlier)]
        exact rounds.round i earlier
      · rw [if_pos (Nat.le_refl i), if_neg (Nat.not_succ_le_self i)]
        exact ⟨value, tested, last, test, truthy, done⟩
    · exact if_neg (Nat.not_succ_le_self count)

/-! ### After the last round -/

theorem Leaves.ends (leaves : loop.Leaves scope count session outcome after) :
    Ends ⟨.eval loop.condition scope, [.loopTest loop count scope], session⟩ outcome after := by
  have finished (result : Outcome) (last : Session) : Ends ⟨result.control, [], last⟩ result last :=
    (ends_control result last).mpr ⟨rfl, rfl⟩
  cases outcome with
  | ok value =>
    obtain ⟨rfl, finishes⟩ := leaves
    cases finishes with
    | exhausted test falsy done =>
      rw [ends_received test, receive, resume, if_neg (ne_true_of_eq_false falsy), ends_received done]
      exact finished (.ok .nothing) after
    | broken test truthy broke =>
      rw [ends_received test, receive, resume, if_pos truthy, ends_received broke]
      exact finished (.ok .nothing) _
  | error escape =>
    cases leaves with
    | condition test =>
      rw [ends_received test]
      exact finished (.error (Escape.passing _ _ _)) after
    | @body value escape tested after test truthy escaped other =>
      rw [ends_received test, receive, resume, if_pos truthy, ends_received escaped]
      cases escape with
      | broke => exact absurd rfl other
      | failed | returned => exact finished (.error (Escape.passing _ _ _)) after
    | otherwise test falsy escaped =>
      rw [ends_received test, receive, resume, if_neg (ne_true_of_eq_false falsy), ends_received escaped]
      exact finished (.error (Escape.passing _ _ _)) after

/-- A loop that ends has been through some more rounds, and is then left. -/
theorem run_rounds {fuel : Nat} (turns : Turns loop scope count session begun)
    (ran : run fuel ⟨.eval loop.condition scope, [.loopTest loop count scope], begun⟩ = some (outcome, after)) :
    ∃ total last, Turns loop scope total session last ∧ loop.Leaves scope total last outcome after := by
  -- on the steps left: one more round leaves fewer, and adds to the rounds behind it
  induction fuel using Nat.strongRecOn generalizing count begun with
  | ind fuel ih =>
    obtain ⟨result, tested, first, rest, -, fewer, test, onward⟩ := run_frame ran
    cases result with
    | error escape =>
      obtain ⟨rfl, rfl⟩ := run_outcome
        (show run rest ⟨Outcome.control (.error (escape.passing _ _)), [], tested⟩ = _ from onward)
      exact ⟨count, begun, turns, .condition ⟨first, test⟩⟩
    | ok value =>
      rw [receive, resume] at onward
      by_cases truthy : value.isTruthy = true
      · rw [if_pos truthy] at onward
        obtain ⟨inner, worked, steps, remaining, -, less, body, further⟩ := run_frame onward
        cases inner with
        | ok last =>
          rcases run_block body with ⟨_, values, -, completes⟩ | ⟨_, _, _, _, _, _, _, other, _⟩
          · exact ih remaining (by omega) (turns.turn ⟨first, test⟩ truthy completes) further
          · cases other
        | error escape =>
          cases escape with
          | broke =>
            obtain ⟨rfl, rfl⟩ := run_outcome (show run remaining ⟨Outcome.control (.ok .nothing), [], _⟩ = _ from further)
            exact ⟨count, begun, turns, rfl, .broken ⟨first, test⟩ truthy ⟨steps, body⟩⟩
          | failed failure | returned value =>
            obtain ⟨rfl, rfl⟩ := run_outcome
              (show run remaining ⟨Outcome.control (.error (Escape.passing _ _ _)), [], worked⟩ = _ from further)
            exact ⟨count, begun, turns, .body ⟨first, test⟩ truthy ⟨steps, body⟩ (Escape.noConfusion ·)⟩
      · rw [if_neg truthy] at onward
        have falsy := Bool.not_eq_true _ ▸ truthy
        obtain ⟨inner, done, steps, remaining, -, -, otherwise, further⟩ := run_frame onward
        cases inner with
        | ok last =>
          obtain ⟨rfl, rfl⟩ := run_outcome (show run remaining ⟨Outcome.control (.ok .nothing), [], done⟩ = _ from further)
          exact ⟨count, begun, turns, rfl, .exhausted ⟨first, test⟩ falsy ⟨steps, otherwise⟩⟩
        | error escape =>
          obtain ⟨rfl, rfl⟩ := run_outcome
            (show run remaining ⟨Outcome.control (.error (escape.passing _ _)), [], done⟩ = _ from further)
          exact ⟨count, begun, turns, .otherwise ⟨first, test⟩ falsy ⟨steps, otherwise⟩⟩

theorem ends_rounds : Ends ⟨.eval loop.node scope, [], session⟩ outcome after ↔
    ∃ count moments, loop.Rounds scope (session.note (.evaluating loop.node)) count moments ∧
      loop.Leaves scope count (moments count) outcome after := by
  rw [ends_running rfl]
  constructor
  · rintro ⟨fuel, ran⟩
    obtain ⟨total, last, turns, leaves⟩ := run_rounds (.start _) ran
    obtain ⟨moments, rounds, rfl⟩ := rounds_of_turns turns
    exact ⟨total, moments, rounds, leaves⟩
  · rintro ⟨count, moments, rounds, leaves⟩
    exact rounds.turns.ends.mpr leaves.ends

end Loop

namespace Config

/-! ### A failure is not stopped -/

theorem unwind_failed (failure : Failure) (frame : Frame) (stack : List Frame) (session : Session) :
    ∃ trail last, unwind .usual (.failed failure) frame stack session =
      ⟨.escape (.failed ⟨failure.cause, trail⟩), stack, last⟩ := by
  cases frame with
  | branch place taken => cases taken <;> exact ⟨_, _, rfl⟩
  | _ => exact ⟨_, _, rfl⟩

theorem ends_failed (failure : Failure) (stack : List Frame) (session : Session) :
    ∃ trail after, Ends ⟨.escape (.failed failure), stack, session⟩ (.error (.failed ⟨failure.cause, trail⟩)) after := by
  induction stack generalizing failure session with
  | nil => exact ⟨failure.trail, session, ends_finished rfl⟩
  | cons frame stack ih =>
    obtain ⟨trail, last, passed⟩ := unwind_failed failure frame stack session
    obtain ⟨further, after, ended⟩ := ih ⟨failure.cause, trail⟩ last
    have stepped : step ⟨.escape (.failed failure), frame :: stack, session⟩ = _ := congrArg Progress.running passed
    exact ⟨further, after, (ends_running stepped).mpr ended⟩

/-- An evaluation ends as it goes on from any configuration on its course. -/
theorem ends_of_course {config passed : Config} {outcome : Outcome} {after : Session} {fuel : Nat}
    (member : passed ∈ config.course fuel) (ends : passed.Ends outcome after) : config.Ends outcome after := by
  induction fuel generalizing config with
  | zero => cases member
  | succ fuel ih =>
    cases stepped : config.step with
    | running next =>
      rw [course_running fuel stepped] at member
      rcases List.mem_cons.mp member with rfl | later
      · exact ends
      · exact (ends_running stepped).mpr (ih later)
    | finished result session =>
      rw [course, stepped] at member
      cases List.mem_singleton.mp member
      exact ends

/-- A `break` is about to leave the body of a procedure. -/
def BreaksOut (config : Config) : Prop :=
  ∃ name place rest own lower, config.control = .escape .broke ∧ config.stack = .body name place rest own :: lower

theorem BreaksOut.ends {config : Config} (breaks : config.BreaksOut) :
    ∃ trail after, config.Ends (.error (.failed ⟨.strayBreak, trail⟩)) after := by
  obtain ⟨control, stack, session⟩ := config
  obtain ⟨name, place, rest, own, lower, rfl, rfl⟩ := breaks
  obtain ⟨trail, after, ended⟩ := ends_failed ⟨.strayBreak, []⟩ lower (session.closeScope own)
  exact ⟨trail, after, (ends_running rfl).mpr ended⟩

end Config

/-- A loop ends normally just when, after some number of rounds, its condition does not hold and its otherwise block is done,
or its body comes to a `break`; and it ends early just when something escapes after such rounds that it does not stop, which
goes on with an activity of the loop if it is a failure. A `break` that one loop lets out stops the loop around it. One that
leaves the body of a procedure, called for by the body of a loop, stops no loop: it comes there as a failure. -/
theorem loop_round_by_round :
    (∀ (loop : Loop) scope session,
      (∀ value after, Ends ⟨.eval loop.node scope, [], session⟩ (.ok value) after ↔
        value = .nothing ∧ ∃ count moments, loop.Rounds scope (session.note (.evaluating loop.node)) count moments ∧
          loop.Finishes scope count (moments count) after) ∧
      ∀ escape after, Ends ⟨.eval loop.node scope, [], session⟩ (.error escape) after ↔
        ∃ count moments, loop.Rounds scope (session.note (.evaluating loop.node)) count moments ∧
          loop.Escapes scope count (moments count) escape after) ∧
    ∀ (loop : Loop) scope session count moments value tested,
      loop.Rounds scope (session.note (.evaluating loop.node)) count moments →
      Ends ⟨.eval loop.condition scope, [], moments count⟩ (.ok value) tested → value.isTruthy = true →
      (∀ (inner : Loop) before rest values middle after, loop.body = before ++ inner.node :: rest →
        Completes scope tested before values middle → Ends ⟨.eval inner.node scope, [], middle⟩ (.error .broke) after →
        Ends ⟨.eval loop.node scope, [], session⟩ (.ok .nothing) (after.note (.loopBroken loop.line count))) ∧
      ∀ fuel, ∀ config ∈ Config.course fuel ⟨.block loop.body scope, [], tested⟩, config.BreaksOut →
        (∃ trail after, Ends ⟨.eval loop.node scope, [], session⟩
          (.error (.failed ⟨.strayBreak, ⟨loop.place, "running the loop body"⟩ :: trail⟩)) after) ∧
        ∀ value after, ¬ Ends ⟨.eval loop.node scope, [], session⟩ (.ok value) after := by
  constructor
  · intro loop scope session
    constructor
    · intro value after
      rw [Loop.ends_rounds]
      constructor
      · rintro ⟨count, moments, rounds, rfl, finishes⟩
        exact ⟨rfl, count, moments, rounds, finishes⟩
      · rintro ⟨rfl, count, moments, rounds, finishes⟩
        exact ⟨count, moments, rounds, rfl, finishes⟩
    · exact fun escape after => Loop.ends_rounds
  · intro loop scope session count moments value tested rounds test truthy
    constructor
    · intro inner before rest values middle after split passed broke
      have stopped : Ends ⟨.block loop.body scope, [], tested⟩ (.error .broke) after :=
        split ▸ ends_block_at passed broke
      exact Loop.ends_rounds.mpr ⟨count, moments, rounds, rfl, .broken test truthy stopped⟩
    · intro fuel config member breaks
      obtain ⟨trail, after, ended⟩ := breaks.ends
      have failed : Ends ⟨.eval loop.node scope, [], session⟩
          (.error (.failed ⟨.strayBreak, ⟨loop.place, "running the loop body"⟩ :: trail⟩)) after :=
        Loop.ends_rounds.mpr
          ⟨count, moments, rounds, .body test truthy (ends_of_course member ended) (Escape.noConfusion ·)⟩
      refine ⟨⟨trail, after, failed⟩, fun value last normal => ?_⟩
      cases (failed.unique normal).1

/-- A loop without end but for a procedure that it calls, which is left by a `break` in it. -/
theorem loop_round_by_round_called :
    ∃ session loop, loop = Loop.mk (.literal (.boolean true) 3)
        [.call (.identifier "leave" 4) [.literal (.boolean true) 4] 4] [] 3 ∧
      session.lookup Arena.root "leave" =
        some (.procedure (.closure ⟨"leave", ["x"], [.breaks 2], 0, Arena.root⟩)) ∧
      (∃ trail after, Ends ⟨.eval loop.node Arena.root, [], session⟩
        (.error (.failed ⟨.strayBreak, ⟨⟨"while loop", 3⟩, "running the loop body"⟩ :: trail⟩)) after) ∧
      ∀ value after, ¬ Ends ⟨.eval loop.node Arena.root, [], session⟩ (.ok value) after := by
  let loop := Loop.mk (.literal (.boolean true) 3) [.call (.identifier "leave" 4) [.literal (.boolean true) 4] 4] [] 3
  have ran : ∃ outcome session, (Session.start (.ofInput []) .silent).run 10 [.definition "leave" ["x"] [.breaks 2] 0 1] =
      some (outcome, session) ∧
      session.lookup Arena.root "leave" =
        some (.procedure (.closure ⟨"leave", ["x"], [.breaks 2], 0, Arena.root⟩)) ∧
      ∃ value tested, Ends ⟨.eval loop.condition Arena.root, [], session.note (.evaluating loop.node)⟩ (.ok value) tested ∧
        value.isTruthy = true ∧
        ∃ config, (Config.course 20 ⟨.block loop.body Arena.root, [], tested⟩)[8]? = some config ∧ config.BreaksOut :=
    ⟨_, _, rfl, rfl, _, _, ⟨3, rfl⟩, rfl, _, rfl, _, _, _, _, _, rfl, rfl⟩
  obtain ⟨outcome, session, -, found, value, tested, test, truthy, config, passed, breaks⟩ := ran
  let begun := session.note (.evaluating loop.node)
  have rounds : loop.Rounds Arena.root begun 0 fun _ => begun :=
    ⟨rfl, fun i below => absurd below i.not_lt_zero⟩
  obtain ⟨-, called⟩ := loop_round_by_round.2 loop Arena.root session 0 _ value tested rounds test truthy
  exact ⟨session, loop, rfl, found, called 20 config (List.mem_of_getElem? passed) breaks⟩

end Parlance
