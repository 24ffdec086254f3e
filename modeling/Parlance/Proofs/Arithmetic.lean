import Mathlib
import Parlance.Proofs.Arithmetic.Chain
import Parlance.Proofs.Machine.Ends
import Parlance.Proofs.WellFormedRuns

/-! Arithmetic is exact. A calculation is evaluated operand by operand, and as long as each part of it has a value that is
a number, that value is what evaluation finds. The first part that has none ends the evaluation. -/
namespace Parlance

open Arena

/-! ### Exact results -/

namespace Number

theorem ofInt?_some {m : Int} (fits : -2 ^ 63 ≤ m ∧ m < 2 ^ 63) : ofInt? m = some (Int64.ofInt m) :=
  if_pos ⟨fits.1, Int.le_of_lt_add_one fits.2⟩

theorem ofInt?_none {m : Int} (unfit : ¬ (-2 ^ 63 ≤ m ∧ m < 2 ^ 63)) : ofInt? m = none :=
  if_neg fun within => unfit ⟨within.1, Int.lt_add_one_of_le within.2⟩

end Number

theorem Arithmetic.compute?_eq (arithmetic : Arithmetic) (a b : Number) :
    arithmetic.operator.compute? a b = if arithmetic == .divides && b.toInt == 0 then none
      else (Number.ofInt? (arithmetic.exact a.toInt b.toInt)).map .number := by
  cases arithmetic with
  | multiply | plus | minus => rfl
  | divides =>
    have zero : b = 0 ↔ b.toInt = 0 := by
      rw [← Int64.toInt_inj]
      rfl
    simp only [operator, Operator.compute?, Number.div?, zero, beq_self_eq_true, Bool.true_and, beq_iff_eq]
    split <;> rfl

namespace Calculation

/-- The value among the integers. -/
def value : Calculation → Int
  | .number numeral => numeral.value
  | .operation arithmetic left right => arithmetic.exact left.value right.value

def dividesByZero : Calculation → Bool
  | .operation arithmetic _ right => arithmetic == .divides && right.value == 0
  | .number _ => false

/-- There is a value and it is in the range of numbers. Of the operands nothing is said. -/
def Fits (calculation : Calculation) : Prop :=
  calculation.dividesByZero = false ∧ -2 ^ 63 ≤ calculation.value ∧ calculation.value < 2 ^ 63

instance : DecidablePred Fits :=
  fun _ => inferInstanceAs (Decidable (_ ∧ _))

inductive Side where
  | left | right
deriving DecidableEq, Repr

/-- A calculation within another one, and the way to it. -/
structure Part where
  path : List Side
  node : Calculation

def Part.under (side : Side) (part : Part) : Part :=
  ⟨side :: part.path, part.node⟩

/-- All parts, left before right and operands before their operator. -/
def parts : Calculation → List Part
  | .number numeral => [⟨[], .number numeral⟩]
  | .operation arithmetic left right =>
    left.parts.map (.under .left) ++ right.parts.map (.under .right) ++ [⟨[], .operation arithmetic left right⟩]

/-- The first part without a value that is a number. -/
def unfit? (calculation : Calculation) : Option Part :=
  calculation.parts.find? (¬ ·.node.Fits)

theorem self_mem_parts (calculation : Calculation) : ⟨[], calculation⟩ ∈ calculation.parts := by
  cases calculation <;> simp [parts]

theorem forall_parts_operation (good : Calculation → Prop) {arithmetic : Arithmetic} {left right : Calculation} :
    (∀ part ∈ (operation arithmetic left right).parts, good part.node) ↔
      (∀ part ∈ left.parts, good part.node) ∧ (∀ part ∈ right.parts, good part.node) ∧
        good (operation arithmetic left right) := by
  simp [parts, or_imp, forall_and, Part.under]

theorem unfit?_eq_none {calculation : Calculation} (none : calculation.unfit? = none) :
    ∀ part ∈ calculation.parts, part.node.Fits := by
  simpa [unfit?] using none

theorem number_fits (numeral : Numeral) : (number numeral).Fits := by
  have small : numeral.value < 0x8000000000000000 := numeral.fits
  exact ⟨rfl, by simp only [value]; omega, by simp only [value]; omega⟩

theorem unfit?_operation (arithmetic : Arithmetic) (left right : Calculation) :
    (operation arithmetic left right).unfit? =
      ((left.unfit?.map (Part.under .left)).or (right.unfit?.map (Part.under .right))).or
        (if (operation arithmetic left right).Fits then none else some ⟨[], operation arithmetic left right⟩) := by
  unfold unfit?
  rw [parts, List.find?_append, List.find?_append, List.find?_map, List.find?_map]
  congr 1
  by_cases fits : (operation arithmetic left right).Fits <;> simp [fits]

/-- The exact operation has a result just where the calculation has a value that is a number. -/
theorem compute?_fits (arithmetic : Arithmetic) {left right : Calculation} {a b : Number} (first : a.toInt = left.value)
    (second : b.toInt = right.value) : arithmetic.operator.compute? a b =
      if (operation arithmetic left right).Fits then
        some (.number (Int64.ofInt (operation arithmetic left right).value)) else none := by
  rw [Arithmetic.compute?_eq, first, second]
  show (if (operation arithmetic left right).dividesByZero = true then none
    else (Number.ofInt? (operation arithmetic left right).value).map Value.number) = _
  by_cases zero : (operation arithmetic left right).dividesByZero = true
  · rw [if_pos zero, if_neg fun fits => by cases zero.symm.trans fits.1]
  · rw [if_neg zero]
    by_cases within : -2 ^ 63 ≤ (operation arithmetic left right).value ∧ (operation arithmetic left right).value < 2 ^ 63
    · rw [if_pos ⟨Bool.eq_false_iff.mpr zero, within⟩, Number.ofInt?_some within]
      rfl
    · rw [if_neg fun fits => within fits.2, Number.ofInt?_none within]
      rfl

theorem number_node (site line : Nat) (calculation : Calculation) :
    (calculation.node line).number site = (calculation.node line, site) := by
  induction calculation with
  | number numeral => rfl
  | operation arithmetic left right first second => simp [node, Node.number, Node.numberAll, first, second]

end Calculation

/-! ### Evaluation -/

namespace Config

/-- Steps that lead from one configuration to another and pass through good ones. -/
def Walks (good : Config → Prop) : Config → Config → Prop :=
  Relation.ReflTransGen fun config next => good config ∧ config.step = .running next

variable {good : Config → Prop} {config next last : Config}

theorem Walks.ends (walks : Walks good config last) {outcome : Outcome} {after : Session} :
    config.Ends outcome after ↔ last.Ends outcome after := by
  induction walks with
  | refl => rfl
  | tail _ further ih => exact ih.trans (ends_running further.2)

theorem Walks.course (walks : Walks good config last) (rest : ∀ fuel, ∀ passed ∈ last.course fuel, good passed) :
    ∀ fuel, ∀ passed ∈ config.course fuel, good passed := by
  induction walks using Relation.ReflTransGen.head_induction_on with
  | refl => exact rest
  | head further _ ih =>
    intro fuel passed member
    cases fuel with
    | zero => cases member
    | succ fuel =>
      rw [course_running fuel further.2] at member
      rcases List.mem_cons.mp member with rfl | later
      · exact further.1
      · exact ih fuel passed later

/-- If the control is a number, then a genuine one. -/
def Reports (genuine : Int → Prop) (config : Config) : Prop :=
  ∀ number, config.control = .value (.number number) → genuine number.toInt

end Config

/-- From the root, the operators' names lead to the operators. -/
def Session.KnowsOperators (session : Session) : Prop :=
  ∀ operator : Operator,
    session.lookup root operator.procedureName = some (.procedure (.builtin (.ofOperator operator)))

namespace Calculation

open Config

variable {genuine : Int → Prop} {session : Session}

/-- Steps that lead from one control and stack to others, report no number that is not genuine and change nothing in the
session but its log. -/
def Leads (genuine : Int → Prop) (session : Session) (before after : Control × List Frame) : Prop :=
  ∀ log, ∃ log', Walks (Reports genuine) ⟨before.1, before.2, { session with log }⟩
    ⟨after.1, after.2, { session with log := log' }⟩

theorem Leads.trans {before middle after : Control × List Frame} (first : Leads genuine session before middle)
    (second : Leads genuine session middle after) : Leads genuine session before after := by
  intro log
  obtain ⟨log', walks⟩ := first log
  obtain ⟨last, further⟩ := second log'
  exact ⟨last, Relation.ReflTransGen.trans walks further⟩

instance : Trans (Leads genuine session) (Leads genuine session) (Leads genuine session) :=
  ⟨Leads.trans⟩

theorem Leads.step {before after : Control × List Frame}
    (reported : ∀ number, before.1 = .value (.number number) → genuine number.toInt)
    (stepped : ∀ log, ∃ log', Config.step ⟨before.1, before.2, { session with log }⟩ =
      .running ⟨after.1, after.2, { session with log := log' }⟩) : Leads genuine session before after := by
  intro log
  obtain ⟨log', goes⟩ := stepped log
  exact ⟨log', Relation.ReflTransGen.single ⟨reported, goes⟩⟩

theorem leads_eval (node : Node) {scope : ScopeId} {stack : List Frame} {after : Control × List Frame}
    (begun : ∀ log, ∃ log', Config.eval node scope stack { session with log } =
      ⟨after.1, after.2, { session with log := log' }⟩) : Leads genuine session (.eval node scope, stack) after := by
  refine .step (fun _ same => by cases same) fun log => ?_
  obtain ⟨log', same⟩ := begun (log.note (.evaluating node))
  exact ⟨log', congrArg Progress.running same⟩

variable {arithmetic : Arithmetic} {left right : Calculation} {stack : List Frame} {line : Nat}

/-- What the trail of a failure says of the operations of a line. -/
def place (line : Nat) : Place :=
  ⟨"procedure", line⟩

def procedure (arithmetic : Arithmetic) : Procedure :=
  .builtin (.ofOperator arithmetic.operator)

/-- What waits for an operand: `done` holds the values of those before it. -/
def waiting (arithmetic : Arithmetic) (line : Nat) (done : List Value) (rest : List Calculation) : Frame :=
  .argument (place line) (.procedure (procedure arithmetic)) done (rest.map (node line)) root

/-- An operation begins with its operator's name; then the left operand is evaluated. -/
theorem leads_left (known : session.KnowsOperators) (arithmetic : Arithmetic) (left right : Calculation) (line : Nat)
    (stack : List Frame) :
    Leads genuine session (.eval ((operation arithmetic left right).node line) root, stack)
      (.eval (left.node line) root, waiting arithmetic line [] [right] :: stack) := by
  let head := Frame.head (place line) [left.node line, right.node line] root
  have found (log : Log) : ({ session with log } : Session).lookup root arithmetic.operator.procedureName =
      some (.procedure (procedure arithmetic)) := known arithmetic.operator
  calc
    Leads genuine session _ (.eval (.identifier arithmetic.operator.procedureName line) root, head :: stack) :=
      leads_eval _ fun log => ⟨log, rfl⟩
    Leads genuine session _ (.value (.procedure (procedure arithmetic)), head :: stack) := by
      refine leads_eval _ fun log => ⟨log, ?_⟩
      simp only [Config.eval, found]
    Leads genuine session _ _ := .step (fun _ same => by cases same) fun log => ⟨log, rfl⟩

/-- The complaint about an operation whose result is no number. -/
def complaint (arithmetic : Arithmetic) (left right : Calculation) : Fault :=
  .badCall s!"{left.value} {arithmetic.operator.spelling} {right.value} has no result that fits in a number"

theorem apply_fits (arithmetic : Arithmetic) {a b : Number} (first : a.toInt = left.value) (second : b.toInt = right.value) :
    arithmetic.operator.apply (.number a) (.number b) =
      if (operation arithmetic left right).Fits then
        .ok (.number (Int64.ofInt (operation arithmetic left right).value))
      else .error (complaint arithmetic left right) := by
  have described : complaint arithmetic left right = .badCall
      s!"{a.describe} {arithmetic.operator.spelling} {b.describe} has no result that fits in a number" := by
    rw [complaint, ← first, ← second]
    rfl
  have computed := compute?_fits arithmetic first second
  rw [described]
  split_ifs at computed ⊢
  all_goals
    cases arithmetic <;>
      simp only [Arithmetic.operator, Operator.apply, Value.expectNumber, bind, Except.bind] at computed ⊢ <;>
      rw [computed]

/-- Where both operands have their values, the operator is applied to them. -/
theorem leads_apply (arithmetic : Arithmetic) {a b : Number} (first : a.toInt = left.value) (second : b.toInt = right.value)
    (exact : genuine right.value) (line : Nat) (stack : List Frame) :
    Leads genuine session (.value (.number b), waiting arithmetic line [.number a] [] :: stack)
      (if (operation arithmetic left right).Fits then
          .value (.number (Int64.ofInt (operation arithmetic left right).value))
        else .escape (.ofFault (complaint arithmetic left right)),
        .invoking (place line) (procedure arithmetic) :: stack) := by
  have applied := apply_fits arithmetic first second
  let invoking := Frame.invoking (place line) (procedure arithmetic)
  calc
    Leads genuine session _ (.invoke (procedure arithmetic) [.number a, .number b], invoking :: stack) := by
      refine .step (fun number same => ?_) fun log => ⟨log, rfl⟩
      cases same
      exact second ▸ exact
    Leads genuine session _ _ := by
      refine .step (fun _ same => by cases same) fun log => ⟨log, congrArg Progress.running ?_⟩
      have acted : Session.act { session with log } (.operate arithmetic.operator) [.number a, .number b] =
        (arithmetic.operator.apply (.number a) (.number b), { session with log }) := rfl
      rw [procedure, invoke, if_pos (by rfl), Regime.usual]
      dsimp only [Builtin.ofOperator]
      rw [acted, applied]
      split_ifs <;> rfl

theorem leads_right (arithmetic : Arithmetic) {a : Number} (first : a.toInt = left.value) (exact : genuine left.value)
    (right : Calculation) (line : Nat) (stack : List Frame) :
    Leads genuine session (.value (.number a), waiting arithmetic line [] [right] :: stack)
      (.eval (right.node line) root, waiting arithmetic line [.number a] [] :: stack) := by
  refine .step (fun number same => ?_) fun log => ⟨log, rfl⟩
  cases same
  exact first ▸ exact

/-- A calculation all of whose parts have values that are numbers comes to its own value. -/
theorem leads_value (known : session.KnowsOperators) {calculation : Calculation}
    (exact : ∀ part ∈ calculation.parts, genuine part.node.value) (fits : ∀ part ∈ calculation.parts, part.node.Fits)
    (line : Nat) (stack : List Frame) :
    ∃ number, number.toInt = calculation.value ∧
      Leads genuine session (.eval (calculation.node line) root, stack) (.value (.number number), stack) := by
  induction calculation generalizing stack with
  | number numeral => exact ⟨numeral.number, numeral.toInt_number, leads_eval _ fun log => ⟨log, rfl⟩⟩
  | operation arithmetic left right first second =>
    obtain ⟨exactLeft, exactRight, own⟩ := (forall_parts_operation (genuine ·.value)).mp exact
    obtain ⟨fitsLeft, fitsRight, whole⟩ := (forall_parts_operation Fits).mp fits
    obtain ⟨a, same, evaluated⟩ := first exactLeft fitsLeft (waiting arithmetic line [] [right] :: stack)
    obtain ⟨b, alike, reckoned⟩ := second exactRight fitsRight (waiting arithmetic line [.number a] [] :: stack)
    have begun : Leads genuine session _ _ := leads_left known arithmetic left right line stack
    have between : Leads genuine session _ _ :=
      leads_right arithmetic same (exactLeft _ left.self_mem_parts) right line stack
    have applied : Leads genuine session _ _ :=
      leads_apply arithmetic same alike (exactRight _ right.self_mem_parts) line stack
    rw [if_pos whole] at applied
    have result := Number.toInt_of_ofInt? (Number.ofInt?_some whole.2)
    refine ⟨_, result, (((begun.trans evaluated).trans between).trans reckoned).trans (applied.trans ?_)⟩
    refine .step (fun number same => ?_) fun log => ⟨log, rfl⟩
    cases same
    exact result.symm ▸ own

/-- What the trail of a failure says of an operand. -/
def Side.doing : Side → String
  | .left => s!"getting the value of argument {1}"
  | .right => s!"getting the value of argument {2}"

/-- The trail of a failure of the operation at the end of a path. -/
def trail (line : Nat) (arithmetic : Arithmetic) (path : List Side) : List Activity :=
  path.map (fun side => ⟨place line, side.doing⟩) ++ [⟨place line, s!"invoking {(procedure arithmetic).describe}"⟩]

/-- The first part whose value is no number ends the evaluation. -/
theorem leads_unfit (known : session.KnowsOperators) {calculation : Calculation}
    (exact : ∀ part ∈ calculation.parts, genuine part.node.value) {part : Part} (unfit : calculation.unfit? = some part)
    (line : Nat) (stack : List Frame) :
    ∃ arithmetic left right, part.node = .operation arithmetic left right ∧
      Leads genuine session (.eval (calculation.node line) root, stack)
        (.escape (.failed ⟨complaint arithmetic left right, trail line arithmetic part.path⟩), stack) := by
  induction calculation generalizing part stack with
  | number numeral =>
    have fits := number_fits numeral
    simp [unfit?, parts, fits] at unfit
  | operation arithmetic left right first second =>
    obtain ⟨exactLeft, exactRight, own⟩ := (forall_parts_operation (genuine ·.value)).mp exact
    have begun : Leads genuine session _ _ := leads_left known arithmetic left right line stack
    rw [unfit?_operation] at unfit
    cases before : left.unfit? with
    | some inner =>
      rw [before] at unfit
      cases unfit
      obtain ⟨wrong, low, high, same, failed⟩ := first exactLeft before (waiting arithmetic line [] [right] :: stack)
      refine ⟨wrong, low, high, same, (begun.trans failed).trans ?_⟩
      exact .step (fun _ same => by cases same) fun log => ⟨log, rfl⟩
    | none =>
      obtain ⟨a, same, evaluated⟩ :=
        leads_value known exactLeft (unfit?_eq_none before) line (waiting arithmetic line [] [right] :: stack)
      have between : Leads genuine session _ _ :=
        leads_right arithmetic same (exactLeft _ left.self_mem_parts) right line stack
      have halfway := (begun.trans evaluated).trans between
      cases after : right.unfit? with
      | some inner =>
        rw [before, after] at unfit
        cases unfit
        obtain ⟨wrong, low, high, same, failed⟩ :=
          second exactRight after (waiting arithmetic line [.number a] [] :: stack)
        refine ⟨wrong, low, high, same, (halfway.trans failed).trans ?_⟩
        exact .step (fun _ same => by cases same) fun log => ⟨log, rfl⟩
      | none =>
        obtain ⟨b, alike, reckoned⟩ :=
          leads_value known exactRight (unfit?_eq_none after) line (waiting arithmetic line [.number a] [] :: stack)
        have applied : Leads genuine session _ _ :=
          leads_apply arithmetic same alike (exactRight _ right.self_mem_parts) line stack
        rw [before, after] at unfit
        by_cases fits : (operation arithmetic left right).Fits
        · simp [fits] at unfit
        · rw [if_neg fits] at unfit applied
          cases unfit
          refine ⟨arithmetic, left, right, rfl, ((halfway.trans reckoned).trans applied).trans ?_⟩
          exact .step (fun _ same => by cases same) fun log => ⟨log, rfl⟩

/-- How a calculation ends that is a program. -/
inductive Comes (line : Nat) (calculation : Calculation) : Outcome → Prop
  | value {number : Number} (fits : ∀ part ∈ calculation.parts, part.node.Fits)
      (exact : number.toInt = calculation.value) : Comes line calculation (.ok (.number number))
  | fault {part : Part} {arithmetic : Arithmetic} {left right : Calculation} (unfit : calculation.unfit? = some part)
      (blamed : part.node = .operation arithmetic left right) :
      Comes line calculation (.error (.failed ⟨complaint arithmetic left right, trail line arithmetic part.path⟩))

theorem leads_program (known : session.KnowsOperators) {calculation : Calculation}
    (exact : ∀ part ∈ calculation.parts, genuine part.node.value) (line : Nat) :
    ∃ outcome, calculation.Comes line outcome ∧
      Leads genuine session (.block [calculation.node line] root, []) (outcome.control, []) := by
  have begun : Leads genuine session (.block [calculation.node line] root, [])
      (.eval (calculation.node line) root, [.next [] root]) :=
    .step (fun _ same => by cases same) fun log => ⟨log, rfl⟩
  cases found : calculation.unfit? with
  | none =>
    have fits := unfit?_eq_none found
    obtain ⟨number, same, evaluated⟩ := leads_value known exact fits line [.next [] root]
    refine ⟨_, .value fits same, (begun.trans evaluated).trans (.step (fun other given => ?_) fun log => ⟨log, rfl⟩)⟩
    cases given
    exact same.symm ▸ exact _ calculation.self_mem_parts
  | some part =>
    obtain ⟨arithmetic, left, right, blamed, failed⟩ := leads_unfit known exact found line [.next [] root]
    refine ⟨_, .fault found blamed, (begun.trans failed).trans ?_⟩
    exact .step (fun _ same => by cases same) fun log => ⟨log, rfl⟩

end Calculation

namespace Session

variable {session : Session} {source : Source} {calculation : Calculation} {line : Nat}

theorem launch_calculation (session : Session) (source : Source) (calculation : Calculation) (line : Nat) :
    ∃ log, session.launch source [calculation.node line] =
      ⟨.block [calculation.node line] root, [], { session with log }⟩ := by
  refine ⟨((session.noteAll source.program.events).note (.programStarted source.name 1)).log, ?_⟩
  simp only [launch, load, Node.numberAll, Calculation.number_node]
  rfl

/-- A source that is a calculation comes to the end that the calculation comes to, and every number on the way is the value
of a part. -/
theorem execute_calculation (known : session.KnowsOperators)
    (read : source.program.result = .ok [calculation.node line]) :
    ∃ outcome, calculation.Comes line outcome ∧
      (∃ fuel after, session.execute fuel source = some (outcome.mapError .ofEscape, after)) ∧
      ∀ fuel, ∀ config ∈ Config.course fuel (session.launch source [calculation.node line]),
        config.Reports fun m => ∃ part ∈ calculation.parts, part.node.value = m := by
  let genuine (m : Int) : Prop := ∃ part ∈ calculation.parts, part.node.value = m
  have exact : ∀ part ∈ calculation.parts, genuine part.node.value := fun part member => ⟨part, member, rfl⟩
  obtain ⟨outcome, comes, leads⟩ := Calculation.leads_program known exact line
  obtain ⟨begun, launched⟩ := session.launch_calculation source calculation line
  obtain ⟨log, walks⟩ := leads begun
  rw [← launched] at walks
  refine ⟨outcome, comes, ?_, walks.course fun fuel passed member => ?_⟩
  · obtain ⟨fuel, ran⟩ := walks.ends.mpr ((Config.ends_control outcome { session with log }).mpr ⟨rfl, rfl⟩)
    refine ⟨fuel, { session with log }, ?_⟩
    rw [execute_launch session fuel read, ran]
    rfl
  · cases fuel with
    | zero => cases member
    | succ fuel =>
      have last : passed = ⟨outcome.control, [], { session with log }⟩ := by
        cases outcome <;> simpa [Config.course, Config.step, Config.stepUnder, Outcome.control] using member
      subst last
      intro number reported
      cases comes with
      | value fits same =>
        cases reported
        exact ⟨_, calculation.self_mem_parts, same.symm⟩
      | fault => cases reported

end Session

/-- A source with one line, on which numbers stand with arithmetic operators between them, is a calculation. If all parts
of it have values that are numbers, executing the source gives the value of the whole; else the first part without one, left
before right and operands before their operator, ends the execution. And no number turns up on the way but the exact value
of a part. -/
theorem Session.execute_chain {source : Source} {line : String} {chain : Arithmetic.Chain}
    (single : source.lines = [some line]) (flush : (Indent.leading line.toList).isZero = true)
    (spelled : Text.wordsOf line = chain.words) (streams : Streams) (filter : Filter) :
    ((∀ part ∈ chain.tree.parts, part.node.Fits) → ∃ number : Number, number.toInt = chain.tree.value ∧
      ∃ fuel after, (Session.start streams filter).execute fuel source = some (.ok (.number number), after)) ∧
    (∀ before part later, chain.tree.parts = before ++ part :: later → (∀ earlier ∈ before, earlier.node.Fits) →
      ¬ part.node.Fits → ∃ arithmetic left right, part.node = .operation arithmetic left right ∧
        ∃ fuel after, (Session.start streams filter).execute fuel source =
          some (.error (.failed ⟨.badCall
            s!"{left.value} {arithmetic.operator.spelling} {right.value} has no result that fits in a number",
            Calculation.trail 1 arithmetic part.path⟩), after)) ∧
    ∃ program, source.program.result = .ok program ∧
      ∀ fuel, ∀ config ∈ Config.course fuel ((Session.start streams filter).launch source program),
        ∀ number, config.control = .value (.number number) →
          ∃ part ∈ chain.tree.parts, part.node.value = number.toInt := by
  have read := Source.program_chain single flush spelled
  have hosts := Session.hosts_start streams filter
  have known : (Session.start streams filter).KnowsOperators := fun operator =>
    (Session.reserved_start streams filter).lookup hosts.closed operator hosts.tidy.rooted
  obtain ⟨outcome, comes, ⟨fuel, after, executed⟩, reports⟩ := execute_calculation known read
  refine ⟨?_, ?_, [chain.tree.node 1], read, reports⟩
  · intro fits
    cases comes with
    | value _ exact => exact ⟨_, exact, fuel, after, executed⟩
    | @fault part _ _ _ unfit =>
      have unfitting := List.find?_some unfit
      have member := List.mem_of_find?_eq_some unfit
      exact absurd (fits part member) (by simpa using unfitting)
  · intro before part later parted earlier unfitting
    have found : chain.tree.unfit? = some part := by
      rw [Calculation.unfit?, parted, List.find?_append, List.find?_eq_none.mpr (by simpa using earlier)]
      simp [unfitting]
    cases comes with
    | value fits =>
      refine absurd (fits part ?_) unfitting
      simp [parted]
    | fault unfit blamed =>
      cases found.symm.trans unfit
      exact ⟨_, _, _, blamed, fuel, after, executed⟩

/-- The least number has no quotient by minus one, whatever the blanks between the words. -/
theorem Session.execute_chain_least_quotient :
    ∃ fuel after, (Session.start (.ofInput []) .silent).execute fuel
        ⟨"least", [some "0 minus 9223372036854775807 plus 0 minus 1  divides 0 minus 1"]⟩ =
      some (.error (.failed ⟨.badCall "-9223372036854775808 divides -1 has no result that fits in a number",
        [⟨⟨"procedure", 1⟩, "invoking <builtin procedure 'infix  divides'>"⟩]⟩), after) := by
  let zero : Numeral := ⟨['0'], by decide, by decide, by decide⟩
  let one : Numeral := ⟨['1'], by decide, by decide, by decide⟩
  let most : Numeral := ⟨"9223372036854775807".toList, by decide, by decide, by decide⟩
  let chain : Arithmetic.Chain := .link zero .minus (.link most .plus (.link zero .minus (.link one .divides
    (.link zero .minus (.last one)))))
  let least : Calculation := .operation .plus (.operation .minus (.number zero) (.number most))
    (.operation .minus (.number zero) (.number one))
  let opposite : Calculation := .operation .minus (.number zero) (.number one)
  have parted : chain.tree = .operation .divides least opposite := by cbv
  obtain ⟨-, faulty, -⟩ := @Session.execute_chain
    ⟨"least", [some "0 minus 9223372036854775807 plus 0 minus 1  divides 0 minus 1"]⟩ _ chain rfl (by decide +kernel)
    (by decide +kernel) (.ofInput []) .silent
  rw [parted] at faulty
  obtain ⟨arithmetic, left, right, same, ended⟩ := faulty
    (least.parts.map (.under .left) ++ opposite.parts.map (.under .right)) _ [] rfl (by decide +kernel) (by decide +kernel)
  cases same
  exact ended

end Parlance
