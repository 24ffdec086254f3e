import Parlance.Program
import Parlance.Proofs.Machine.Uniform

/-! Evaluations that come to an end, with the number of their steps left out. An evaluation over other frames ends as these
make it end, so a block ends with its statements, one after the other. -/
namespace Parlance

namespace Config

variable {config next : Config} {outcome result : Outcome} {session middle after last : Session}

theorem run_more {fuel more : Nat} (ran : config.run fuel = some (outcome, after)) (le : fuel ≤ more) :
    config.run more = some (outcome, after) := by
  induction fuel generalizing config more with
  | zero => cases ran
  | succ fuel ih =>
    obtain ⟨more, rfl⟩ := Nat.exists_eq_add_of_le' (Nat.le_trans (Nat.succ_le_succ fuel.zero_le) le)
    simp only [run, runUnder] at ran ⊢
    split at ran
    · exact ih ran (by omega)
    · exact ran

/-- After some number of steps the evaluation is over. -/
def Ends (config : Config) (outcome : Outcome) (after : Session) : Prop :=
  ∃ fuel, config.run fuel = some (outcome, after)

theorem exists_ends : (∃ outcome after, config.Ends outcome after) ↔ ∃ fuel, (config.run fuel).isSome := by
  constructor
  · rintro ⟨outcome, after, fuel, ran⟩
    exact ⟨fuel, ran ▸ rfl⟩
  · rintro ⟨fuel, ended⟩
    obtain ⟨⟨outcome, after⟩, ran⟩ := Option.isSome_iff_exists.mp ended
    exact ⟨outcome, after, fuel, ran⟩

theorem Ends.unique (ends : config.Ends outcome after) (again : config.Ends result last) :
    outcome = result ∧ after = last := by
  obtain ⟨fuel, ran⟩ := ends
  obtain ⟨more, reran⟩ := again
  have first := run_more ran (Nat.le_max_left fuel more)
  have second := run_more reran (Nat.le_max_right fuel more)
  exact Prod.mk.inj (Option.some.inj (first.symm.trans second))

theorem ends_running (stepped : config.step = .running next) : config.Ends outcome after ↔ next.Ends outcome after := by
  have goes (fuel : Nat) : config.run (fuel + 1) = next.run fuel := by
    rw [run, runUnder, show config.stepUnder .usual = .running next from stepped]
    rfl
  constructor
  · rintro ⟨_ | fuel, ran⟩
    · cases ran
    · exact ⟨fuel, (goes fuel).symm.trans ran⟩
  · rintro ⟨fuel, ran⟩
    exact ⟨fuel + 1, (goes fuel).trans ran⟩

theorem ends_finished (stepped : config.step = .finished outcome after) : config.Ends outcome after := by
  refine ⟨1, ?_⟩
  rw [run, runUnder, show config.stepUnder .usual = .finished outcome after from stepped]

theorem ends_control (outcome : Outcome) (session : Session) :
    Ends ⟨outcome.control, [], session⟩ result after ↔ result = outcome ∧ after = session := by
  have ended : Ends ⟨outcome.control, [], session⟩ outcome session := by
    cases outcome <;> exact ends_finished rfl
  constructor
  · exact fun ends => ends.unique ended
  · rintro ⟨rfl, rfl⟩
    exact ended

/-- What waits below gets the outcome of what is above, and the evaluation ends as it goes on from there. -/
theorem ends_atop (lower : List Frame) : (config.atop lower).Ends outcome after ↔
    ∃ result middle, config.Ends result middle ∧ Ends ⟨result.control, lower, middle⟩ outcome after := by
  constructor
  · rintro ⟨fuel, ran⟩
    obtain ⟨first, result, middle, rest, above, below⟩ := run_atop lower ran
    exact ⟨result, middle, ⟨first, above⟩, rest, below⟩
  · rintro ⟨result, middle, ⟨fuel, ran⟩, ends⟩
    induction fuel generalizing config with
    | zero => cases ran
    | succ fuel ih =>
      cases stepped : config.step with
      | running next =>
        have goes : config.stepUnder .usual = .running next := stepped
        rw [run, runUnder, goes] at ran
        exact (ends_running (step_atop lower goes)).mpr (ih ran)
      | finished result session =>
        have ended : config.stepUnder .usual = .finished result session := stepped
        rw [run, runUnder, ended] at ran
        cases ran
        rw [finished_atop lower ended]
        exact ends

/-! ### A frame that waits -/

/-- How evaluation goes on when an outcome comes to the only frame that waits for it. -/
def receive (frame : Frame) (outcome : Outcome) (session : Session) : Config :=
  match outcome with
  | .ok value => resume .usual value frame [] session
  | .error escape => unwind .usual escape frame [] session

theorem step_control (frame : Frame) (outcome : Outcome) (session : Session) :
    step ⟨outcome.control, [frame], session⟩ = .running (receive frame outcome session) := by
  cases outcome <;> rfl

theorem ends_frame {control : Control} {frame : Frame} : Ends ⟨control, [frame], session⟩ outcome after ↔
    ∃ result middle, Ends ⟨control, [], session⟩ result middle ∧ Ends (receive frame result middle) outcome after := by
  refine (@ends_atop ⟨control, [], session⟩ outcome after [frame]).trans ?_
  refine exists_congr fun result => exists_congr fun middle => and_congr_right fun _ => ?_
  exact ends_running (step_control frame result middle)

/-- The steps of the evaluation that a frame waits for are fewer, and so are those that follow. -/
theorem run_frame {control : Control} {frame : Frame} {fuel : Nat}
    (ran : run fuel ⟨control, [frame], session⟩ = some (outcome, after)) :
    ∃ result middle first rest, first < fuel ∧ rest < fuel ∧ run first ⟨control, [], session⟩ = some (result, middle) ∧
      run rest (receive frame result middle) = some (outcome, after) := by
  have split : ((⟨control, [], session⟩ : Config).atop [frame]).runUnder .usual fuel = some (outcome, after) := ran
  obtain ⟨first, result, middle, rest, count, above, below⟩ := run_atop_split [frame] split
  rcases first with _ | first
  · cases above
  · rcases rest with _ | rest
    · cases below
    · rw [runUnder, show stepUnder .usual _ = .running _ from step_control frame result middle] at below
      rcases rest with _ | rest
      · cases below
      · exact ⟨result, middle, first + 1, rest + 1, by omega, by omega, above, below⟩

/-! ### Blocks -/

variable {node : Node} {rest : List Node} {scope : ScopeId}

theorem ends_block_nil :
    Ends ⟨.block [] scope, [], session⟩ outcome after ↔ outcome = .ok .nothing ∧ after = session := by
  rw [ends_running rfl]
  exact ends_control (.ok .nothing) session

/-- The statements that wait run as a block of their own, unless there are none left. -/
theorem ends_next (value : Value) : Ends ⟨.value value, [.next rest scope], session⟩ outcome after ↔
    if rest = [] then outcome = .ok value ∧ after = session
    else Ends ⟨.block rest scope, [], session⟩ outcome after := by
  cases rest with
  | nil =>
    rw [ends_running rfl, if_pos rfl]
    exact ends_control (.ok value) session
  | cons node rest =>
    rw [if_neg (List.cons_ne_nil _ _), ends_running rfl]
    exact (ends_running rfl).symm

theorem ends_block_cons : Ends ⟨.block (node :: rest) scope, [], session⟩ outcome after ↔
    ∃ result middle, Ends ⟨.eval node scope, [], session⟩ result middle ∧
      match result with
      | .error escape => outcome = .error escape ∧ after = middle
      | .ok value =>
        if rest = [] then outcome = .ok value ∧ after = middle
        else Ends ⟨.block rest scope, [], middle⟩ outcome after := by
  rw [ends_running rfl]
  refine (@ends_atop ⟨.eval node scope, [], session⟩ outcome after [.next rest scope]).trans ?_
  refine exists_congr fun result => exists_congr fun middle => and_congr_right fun _ => ?_
  cases result with
  | ok value => exact ends_next value
  | error escape =>
    rw [ends_running rfl]
    exact ends_control (.error escape) middle

end Config
end Parlance
