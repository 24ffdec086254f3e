import Parlance.Proofs.Machine.Stack

/-! What builtins hand back: a value or a fault holds no procedure that was not among the arguments. Every regime in which
this is so, and in which scopes are given back, is proper. -/
namespace Parlance

def Value.isProcedure : Value → Bool
  | .procedure _ => true
  | _ => false

theorem Value.handle?_of_isProcedure {value : Value} (data : value.isProcedure = false) : value.handle? = none := by
  cases value with
  | procedure procedure => cases data
  | nothing | boolean | number | text => rfl

/-- Neither a text nor a procedure. -/
def Value.isScalar : Value → Bool
  | .nothing | .boolean _ | .number _ => true
  | .text _ | .procedure _ => false

theorem Value.isProcedure_of_isScalar {value : Value} (scalar : value.isScalar = true) : value.isProcedure = false := by
  cases value with
  | text | procedure => cases scalar
  | nothing | boolean | number => rfl

theorem Operator.compute?_scalar {operator : Operator} {a b : Number} {value : Value}
    (computed : operator.compute? a b = some value) : value.isScalar = true := by
  cases operator with
  | plus | minus | multiply | divides =>
    obtain ⟨result, _, rfl⟩ := Option.map_eq_some_iff.mp computed
    rfl
  | smallerThan | biggerThan | equals | notEquals =>
    cases Option.some.inj computed
    rfl

theorem Value.expectNumber_fault {value : Value} {fault : Fault} (failed : value.expectNumber = .error fault) :
    ∀ held ∈ fault.values, held = value := by
  cases value with
  | number n => cases failed
  | nothing | boolean _ | text _ | procedure _ =>
    cases failed
    intro held member
    exact List.mem_singleton.mp member

theorem Value.compare_fault {left right : Value} {fault : Fault} (failed : left.compare right = .error fault) :
    ∀ held ∈ fault.values, held = left ∨ held = right := by
  unfold compare at failed
  split at failed
  · cases failed
    intro held member
    exact Or.inl (List.mem_singleton.mp member)
  · cases failed
    intro held member
    exact Or.inr (List.mem_singleton.mp member)
  · cases failed

theorem Value.toNumber_fault {value : Value} {fault : Fault} (failed : value.toNumber = .error fault) :
    ∀ held ∈ fault.values, held = value := by
  unfold toNumber at failed
  split at failed
  · cases failed
  · cases failed
  · split at failed
    · cases failed
    · cases failed
      intro held member
      exact List.mem_singleton.mp member
  · cases failed
    intro held member
    exact List.mem_singleton.mp member

theorem bind_success {α β : Type} {first : Except Fault α} {next : α → Except Fault β} {result : β}
    (ok : (first >>= next) = .ok result) : ∃ value, first = .ok value ∧ next value = .ok result := by
  cases first with
  | error reason => cases ok
  | ok value => exact ⟨value, rfl, ok⟩

theorem bind_failure {α β : Type} {first : Except Fault α} {next : α → Except Fault β} {fault : Fault}
    (failed : (first >>= next) = .error fault) :
    first = .error fault ∨ ∃ value, first = .ok value ∧ next value = .error fault := by
  cases first with
  | error reason =>
    cases failed
    exact Or.inl rfl
  | ok value => exact Or.inr ⟨value, rfl, failed⟩

namespace Operator

theorem apply_result {operator : Operator} {left right value : Value}
    (applied : operator.apply left right = .ok value) : value.isScalar = true := by
  unfold apply at applied
  split at applied
  · obtain ⟨same, _, rest⟩ := bind_success applied
    cases rest
    rfl
  · obtain ⟨same, _, rest⟩ := bind_success applied
    cases rest
    rfl
  · obtain ⟨a, _, rest⟩ := bind_success applied
    obtain ⟨b, _, rest⟩ := bind_success rest
    split at rest
    · rename_i computed
      cases rest
      exact compute?_scalar computed
    · cases rest

theorem apply_fault {operator : Operator} {left right : Value} {fault : Fault}
    (failed : operator.apply left right = .error fault) :
    ∀ held ∈ fault.values, held = left ∨ held = right := by
  unfold apply at failed
  split at failed
  · rcases bind_failure failed with compared | ⟨same, _, rest⟩
    · exact Value.compare_fault compared
    · cases rest
  · rcases bind_failure failed with compared | ⟨same, _, rest⟩
    · exact Value.compare_fault compared
    · cases rest
  · rcases bind_failure failed with first | ⟨a, _, rest⟩
    · exact fun held member => Or.inl (Value.expectNumber_fault first held member)
    rcases bind_failure rest with second | ⟨b, _, rest⟩
    · exact fun held member => Or.inr (Value.expectNumber_fault second held member)
    split at rest
    · cases rest
    · cases rest
      exact fun held member => absurd member List.not_mem_nil

end Operator

namespace Action

theorem writing_result {streams : Streams} {text : String} {given value : Value}
    (written : (writing streams text given).1 = .ok value) : value = given := by
  unfold writing at written
  generalize streams.write text = outcome at written
  obtain ⟨_ | _, after⟩ := outcome
  · cases written
  · cases written
    rfl

theorem writing_fault {streams : Streams} {text : String} {given : Value} {fault : Fault}
    (failed : (writing streams text given).1 = .error fault) : fault.values = [] := by
  unfold writing at failed
  generalize streams.write text = outcome at failed
  obtain ⟨_ | _, after⟩ := outcome
  · cases failed
    rfl
  · cases failed

theorem answer_result {streams : Streams} {value : Value} (heard : (answer streams).1 = .ok value) :
    ∃ line, some line ∈ streams.input ∧ value = .text line := by
  obtain ⟨output, error, input⟩ := streams
  rcases input with _ | ⟨_ | line, rest⟩
  · cases heard
  · cases heard
  · cases heard
    exact ⟨line, List.mem_cons_self, rfl⟩

theorem input_writing (streams : Streams) (text : String) (given : Value) :
    (writing streams text given).2.input = streams.input :=
  rfl

theorem answer_fault {streams : Streams} {fault : Fault} (failed : (answer streams).1 = .error fault) :
    fault.values = [] := by
  unfold answer at failed
  generalize streams.readLine = outcome at failed
  obtain ⟨_ | _ | line, after⟩ := outcome
  · cases failed
    rfl
  · cases failed
    rfl
  · cases failed

/-- What `debug` gives back. -/
theorem first_source (arguments : List Value) :
    arguments.headD .nothing ∈ arguments ∨ (arguments.headD .nothing).isScalar = true := by
  cases arguments with
  | nil => exact Or.inr rfl
  | cons first rest => exact Or.inl List.mem_cons_self

/-- A builtin gives one of its arguments, something that is neither a text nor a procedure, or a line of the input. -/
theorem run_source {action : Action} {streams : Streams} {arguments : List Value} {value : Value}
    (acted : (action.run streams arguments).1 = .ok value) :
    value ∈ arguments ∨ value.isScalar = true ∨ ∃ line, some line ∈ streams.input ∧ value = .text line := by
  cases action with
  | display =>
    rw [writing_result acted]
    exact Or.inr (Or.inl rfl)
  | inspect =>
    rw [writing_result acted]
    exact (first_source arguments).imp_right Or.inl
  | ask =>
    cases arguments with
    | nil => exact Or.inr (Or.inr (answer_result acted))
    | cons prompt rest =>
      have still := input_writing streams prompt.describe .nothing
      simp only [run] at acted
      split at acted
      · rename_i wrote
        rw [wrote] at still
        exact Or.inr (Or.inr (still ▸ answer_result acted))
      · cases acted
  | number =>
    simp only [run] at acted
    split at acted
    · rename_i given
      cases converted : given.toNumber with
      | error fault => simp [converted, Except.map] at acted
      | ok n =>
        simp only [converted, Except.map, Except.ok.injEq] at acted
        rw [← acted]
        exact Or.inr (Or.inl rfl)
    · cases acted
  | operate operator =>
    simp only [run] at acted
    split at acted
    · exact Or.inr (Or.inl (Operator.apply_result acted))
    · cases acted

theorem run_result {action : Action} {streams : Streams} {arguments : List Value} {value : Value}
    (acted : (action.run streams arguments).1 = .ok value) : value ∈ arguments ∨ value.isProcedure = false := by
  rcases run_source acted with given | scalar | ⟨line, -, rfl⟩
  · exact Or.inl given
  · exact Or.inr (Value.isProcedure_of_isScalar scalar)
  · exact Or.inr rfl

theorem run_fault {action : Action} {streams : Streams} {arguments : List Value} {fault : Fault}
    (failed : (action.run streams arguments).1 = .error fault) : ∀ value ∈ fault.values, value ∈ arguments := by
  intro value member
  cases action with
  | display =>
    rw [writing_fault failed] at member
    cases member
  | inspect =>
    rw [writing_fault failed] at member
    cases member
  | ask =>
    simp only [run] at failed
    split at failed
    · rw [answer_fault failed] at member
      cases member
    · split at failed
      · rw [answer_fault failed] at member
        cases member
      · rename_i written
        have silent := writing_fault (congrArg Prod.fst written)
        cases failed
        rw [silent] at member
        cases member
  | number =>
    simp only [run] at failed
    split at failed
    · rename_i given
      cases converted : given.toNumber with
      | error reason =>
        simp only [converted, Except.map, Except.error.injEq] at failed
        rw [Value.toNumber_fault converted value (failed ▸ member)]
        exact List.mem_cons_self
      | ok n => simp [converted, Except.map] at failed
    · cases failed
      cases member
  | operate operator =>
    simp only [run] at failed
    split at failed
    · rcases Operator.apply_fault failed value member with same | same <;> simp [same]
    · cases failed
      cases member

end Action

/-- Invocations give their scopes back, and builtins neither touch the scopes nor make up procedures. -/
structure Regime.Proper (regime : Regime) : Prop where
  close : ∀ session scope, (regime.close session scope).arena = session.arena.release scope
  arena : ∀ session action arguments, (regime.act session action arguments).2.arena = session.arena
  result : ∀ session action arguments value, (regime.act session action arguments).1 = .ok value →
    value ∈ arguments ∨ value.handle? = none
  fault : ∀ session action arguments fault, (regime.act session action arguments).1 = .error fault →
    ∀ value ∈ fault.values, value ∈ arguments

theorem Regime.usual_proper : Regime.usual.Proper where
  close := Session.arena_closeScope
  arena _ _ _ := rfl
  result _ _ _ _ acted := (Action.run_result acted).imp_right Value.handle?_of_isProcedure
  fault _ _ _ _ failed := Action.run_fault failed

/-- Closing a scope concerns the scopes only, and acting the streams only. -/
structure Regime.Tame (regime : Regime) : Prop where
  close : ∀ session scope, (regime.close session scope).streams = session.streams ∧
    (regime.close session scope).sites = session.sites
  act : ∀ session action arguments, (regime.act session action arguments).2.arena = session.arena ∧
    (regime.act session action arguments).2.sites = session.sites

theorem Regime.usual_tame : Regime.usual.Tame where
  close session scope := by
    simp only [usual, Session.closeScope]
    split <;> exact ⟨rfl, rfl⟩
  act _ _ _ := ⟨rfl, rfl⟩

def Session.runUnder (regime : Regime) (session : Session) (fuel : Nat) (program : List Node) :
    Option (Outcome × Session) :=
  let (program, session) := session.load program
  Config.runUnder regime fuel ⟨.block program Arena.root, [], session⟩

/-! ### What `debug` shows -/

/-- Like `Session.act`, but `debug` writes other values in the place of its arguments. -/
def Session.actShowing (shown : Value → Value) (session : Session) (action : Action) (arguments : List Value) :
    Except Fault Value × Session :=
  match action with
  | .inspect =>
    let (answer, streams) := Action.writing session.streams
      (String.join (arguments.map fun a => (shown a).inspect ++ "\n")) (arguments.headD .nothing)
    (answer, { session with streams })
  | other => session.act other arguments

theorem Session.actShowing_blind (shown : Value → Value) {action : Action} (blind : action ≠ .inspect)
    (session : Session) (arguments : List Value) :
    session.actShowing shown action arguments = session.act action arguments := by
  cases action with
  | inspect => exact absurd rfl blind
  | display | ask | number | operate => rfl

namespace Regime

variable {regime : Regime} (shown : Value → Value)

def showing (shown : Value → Value) (regime : Regime) : Regime :=
  { regime with act := Session.actShowing shown }

theorem Tame.showing (tame : regime.Tame) : (regime.showing shown).Tame where
  close := tame.close
  act _ action _ := by cases action <;> exact ⟨rfl, rfl⟩

theorem Proper.showing (proper : regime.Proper) : (regime.showing shown).Proper where
  close := proper.close
  arena _ action _ := by cases action <;> rfl
  result session action arguments value acted := by
    by_cases debugs : action = .inspect
    · subst debugs
      rw [Action.writing_result acted]
      exact (Action.first_source arguments).imp_right fun scalar =>
        Value.handle?_of_isProcedure (Value.isProcedure_of_isScalar scalar)
    · simp only [Regime.showing, Session.actShowing_blind shown debugs] at acted
      exact (Action.run_result acted).imp_right Value.handle?_of_isProcedure
  fault session action arguments fault failed := by
    by_cases debugs : action = .inspect
    · subst debugs
      rw [Action.writing_fault failed]
      exact fun value member => absurd member List.not_mem_nil
    · simp only [Regime.showing, Session.actShowing_blind shown debugs] at failed
      exact Action.run_fault failed

end Regime

end Parlance
