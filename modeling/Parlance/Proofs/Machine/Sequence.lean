import Parlance.Proofs.Machine.Ends

/-! Nodes that are evaluated one after the other: the arguments of a call, the statements of a block and of a procedure's
body, and the turns of a loop. Such an evaluation comes to its end, or to the first node that escapes. -/
namespace Parlance.Config

variable {scope : ScopeId} {session middle after : Session} {outcome result : Outcome}

theorem ends_received {control : Control} {frame : Frame} (ends : Ends ⟨control, [], session⟩ result middle) :
    Ends ⟨control, [frame], session⟩ outcome after ↔ Ends (receive frame result middle) outcome after := by
  rw [ends_frame]
  constructor
  · rintro ⟨other, last, again, onward⟩
    obtain ⟨rfl, rfl⟩ := again.unique ends
    exact onward
  · exact fun onward => ⟨result, middle, ends, onward⟩

/-- The nodes evaluate to these values, each in the session that the one before it leaves. -/
inductive Completes (scope : ScopeId) : Session → List Node → List Value → Session → Prop
  | nil (session : Session) : Completes scope session [] [] session
  | cons {session middle after : Session} {node : Node} {rest : List Node} {value : Value} {values : List Value}
      (here : Ends ⟨.eval node scope, [], session⟩ (.ok value) middle) (later : Completes scope middle rest values after) :
      Completes scope session (node :: rest) (value :: values) after

theorem Completes.length_eq {nodes : List Node} {values : List Value}
    (completes : Completes scope session nodes values after) : values.length = nodes.length := by
  induction completes with
  | nil => rfl
  | cons _ _ ih => simp [ih]

/-- How nodes are evaluated in a row: which frame waits for each of them, and how it goes on to the next. -/
structure Succession (scope : ScopeId) where
  go : List Value → List Node → Session → Config
  frame : List Value → Node → List Node → Frame
  begins : ∀ done node rest session,
    go done (node :: rest) session = ⟨.eval node scope, [frame done node rest], session⟩
  resumes : ∀ done node rest value session,
    resume .usual value (frame done node rest) [] session = go (value :: done) rest session

namespace Succession

def arguments (place : Place) (callee : Value) (scope : ScopeId) : Succession scope where
  go done rest session := call place callee done rest scope [] session
  frame done _ rest := .argument place callee done rest scope
  begins _ _ _ _ := rfl
  resumes _ _ _ _ _ := rfl

def body (name : String) (scope : ScopeId) : Succession scope where
  go _ rest session := statements .usual name rest scope [] session
  frame _ node rest := .body name node.place rest scope
  begins _ _ _ _ := rfl
  resumes _ _ _ _ _ := rfl

/-- A block's value is that of its last statement. -/
def block (scope : ScopeId) : Succession scope where
  go done rest session :=
    match rest with
    | [] => ⟨.value (done.headD .nothing), [], session⟩
    | node :: rest => ⟨.eval node scope, [.next rest scope], session⟩
  frame _ _ rest := .next rest scope
  begins _ _ _ _ := rfl
  resumes _ _ rest _ _ := by cases rest <;> rfl

variable (succession : Succession scope) {values : List Value} {nodes before : List Node}

/-- All nodes have values, or one escapes while its frame waits; either takes part of the steps. -/
theorem run_cases {done : List Value} {fuel : Nat}
    (ran : run fuel (succession.go done nodes session) = some (outcome, after)) :
    (∃ values middle rest, Completes scope session nodes values middle ∧ rest ≤ fuel ∧
      run rest (succession.go (values.reverse ++ done) [] middle) = some (outcome, after)) ∨
    ∃ before node later values middle escape last first rest, nodes = before ++ node :: later ∧
      Completes scope session before values middle ∧ first < fuel ∧
      run first ⟨.eval node scope, [], middle⟩ = some (.error escape, last) ∧
      run rest (unwind .usual escape (succession.frame (values.reverse ++ done) node later) [] last) =
        some (outcome, after) := by
  induction nodes generalizing done session fuel with
  | nil => exact .inl ⟨[], session, fuel, .nil session, Nat.le_refl fuel, ran⟩
  | cons node nodes ih =>
    rw [succession.begins] at ran
    obtain ⟨result, middle, first, rest, fewer, less, above, below⟩ := run_frame ran
    cases result with
    | error escape =>
      exact .inr ⟨[], node, nodes, [], session, escape, middle, first, rest, rfl, .nil session, fewer, above, below⟩
    | ok value =>
      rw [receive, succession.resumes] at below
      have reversed (values : List Value) : (value :: values).reverse ++ done = values.reverse ++ value :: done := by simp
      rcases ih below with ⟨values, last, steps, completes, bound, onward⟩ |
        ⟨before, other, later, values, last, escape, final, steps, more, rfl, completes, bound, escaped, onward⟩
      · exact .inl ⟨value :: values, last, steps, .cons ⟨first, above⟩ completes, by omega, reversed values ▸ onward⟩
      · exact .inr ⟨node :: before, other, later, value :: values, last, escape, final, steps, more, rfl,
          .cons ⟨first, above⟩ completes, by omega, escaped, reversed values ▸ onward⟩

/-- Evaluation goes on past nodes that have values. -/
theorem ends_past (done : List Value) (completes : Completes scope session before values middle) (later : List Node) :
    Ends (succession.go done (before ++ later) session) outcome after ↔
      Ends (succession.go (values.reverse ++ done) later middle) outcome after := by
  induction completes generalizing done with
  | nil => rfl
  | @cons session middle last node rest value values here _ ih =>
    rw [List.cons_append, succession.begins, ends_received here, receive, succession.resumes, ih]
    simp

/-- Evaluation comes to a node after others that have values, with its frame waiting. -/
theorem ends_at (done : List Value) (completes : Completes scope session before values middle) {node : Node}
    {later : List Node} {last : Session} (ends : Ends ⟨.eval node scope, [], middle⟩ result last) :
    Ends (succession.go done (before ++ node :: later) session) outcome after ↔
      Ends (receive (succession.frame (values.reverse ++ done) node later) result last) outcome after := by
  rw [succession.ends_past done completes, succession.begins, ends_received ends]

end Succession

theorem ends_call_past {before : List Node} {values : List Value} {place : Place} {callee : Value}
    (given : Completes scope session before values middle) (later : List Node) :
    Ends (call place callee [] (before ++ later) scope [] session) outcome after ↔
      Ends (call place callee values.reverse later scope [] middle) outcome after := by
  rw [← List.append_nil values.reverse]
  exact (Succession.arguments place callee scope).ends_past [] given later

/-! ### Blocks and loops -/

theorem step_block (nodes : List Node) (scope : ScopeId) (session : Session) :
    step ⟨.block nodes scope, [], session⟩ = .running ((Succession.block scope).go [] nodes session) := by
  cases nodes <;> rfl

theorem run_step {config next : Config} {fuel : Nat} (stepped : config.step = .running next)
    (ran : config.run fuel = some (outcome, after)) : ∃ less, less < fuel ∧ next.run less = some (outcome, after) := by
  rcases fuel with _ | fuel
  · cases ran
  · rw [run, runUnder, show config.stepUnder .usual = .running next from stepped] at ran
    exact ⟨fuel, Nat.lt_succ_self fuel, ran⟩

theorem run_outcome {fuel : Nat} (ran : run fuel ⟨result.control, [], session⟩ = some (outcome, after)) :
    outcome = result ∧ after = session :=
  Prod.mk.inj (run_done ran)

/-- A block has its last value, or the escape of the first statement that has none. -/
theorem run_block {fuel : Nat} {nodes : List Node}
    (ran : run fuel ⟨.block nodes scope, [], session⟩ = some (outcome, after)) :
    (∃ value values, outcome = .ok value ∧ Completes scope session nodes values after) ∨
    ∃ before node later values middle escape first, outcome = .error escape ∧ nodes = before ++ node :: later ∧
      Completes scope session before values middle ∧ first < fuel ∧
      run first ⟨.eval node scope, [], middle⟩ = some (.error escape, after) := by
  obtain ⟨less, fewer, ran⟩ := run_step (step_block nodes scope session) ran
  rcases (Succession.block scope).run_cases ran with ⟨values, middle, rest, completes, -, onward⟩ |
    ⟨before, node, later, values, middle, escape, last, first, rest, split, completes, bound, escaped, onward⟩
  · obtain ⟨rfl, rfl⟩ := run_outcome (show run rest ⟨Outcome.control (.ok _), [], middle⟩ = _ from onward)
    exact .inl ⟨_, values, rfl, completes⟩
  · obtain ⟨rfl, rfl⟩ := run_outcome (show run rest ⟨Outcome.control (.error escape), [], last⟩ = _ from onward)
    exact .inr ⟨before, node, later, values, middle, escape, first, rfl, split, completes, by omega, escaped⟩

theorem ends_block_at {before rest : List Node} {statement : Node} {values : List Value} {escape : Escape}
    (completes : Completes scope session before values middle)
    (ends : Ends ⟨.eval statement scope, [], middle⟩ (.error escape) after) :
    Ends ⟨.block (before ++ statement :: rest) scope, [], session⟩ (.error escape) after := by
  rw [ends_running (step_block _ scope session), (Succession.block scope).ends_at [] completes ends]
  exact (ends_control (.error escape) after).mpr ⟨rfl, rfl⟩

theorem Completes.ends_block {nodes : List Node} {values : List Value}
    (completes : Completes scope session nodes values after) :
    ∃ value, Ends ⟨.block nodes scope, [], session⟩ (.ok value) after := by
  refine ⟨(values.reverse ++ []).headD .nothing, ?_⟩
  rw [ends_running (step_block nodes scope session), ← List.append_nil nodes,
    (Succession.block scope).ends_past [] completes]
  exact (ends_control (.ok _) after).mpr ⟨rfl, rfl⟩

/-- A loop has been through this many turns: each time its condition held and all of its body had values. -/
inductive Turns (loop : Loop) (scope : ScopeId) : Nat → Session → Session → Prop
  | start (session : Session) : Turns loop scope 0 session session
  | turn {count : Nat} {session begun tested after : Session} {value : Value} {values : List Value}
      (earlier : Turns loop scope count session begun)
      (holds : Ends ⟨.eval loop.condition scope, [], begun⟩ (.ok value) tested) (truthy : value.isTruthy = true)
      (worked : Completes scope tested loop.body values after) : Turns loop scope (count + 1) session after

theorem Turns.ends {loop : Loop} {count : Nat} {begun : Session} (turns : Turns loop scope count session begun) :
    Ends ⟨.eval loop.condition scope, [.loopTest loop 0 scope], session⟩ outcome after ↔
      Ends ⟨.eval loop.condition scope, [.loopTest loop count scope], begun⟩ outcome after := by
  induction turns with
  | start => rfl
  | turn _ holds truthy worked ih =>
    obtain ⟨value, ended⟩ := worked.ends_block
    rw [ih, ends_received holds, receive, resume, if_pos truthy, ends_received ended]
    rfl

end Parlance.Config
