import Parlance.Proofs.Machine.Regime

/-! Values with other procedures in the place of their own. No builtin looks into a procedure, `debug` apart, so the
answers are those to the values themselves, with the procedures replaced in the same way. -/
namespace Parlance

def Value.image (change : Procedure → Procedure) : Value → Value
  | .procedure p => .procedure (change p)
  | .nothing => .nothing
  | .boolean b => .boolean b
  | .number n => .number n
  | .text t => .text t

def Fault.image (change : Procedure → Procedure) : Fault → Fault
  | .wrongType expected value => .wrongType expected (value.image change)
  | .unknownName name => .unknownName name
  | .badCall details => .badCall details
  | .badTarget label => .badTarget label
  | .stream details => .stream details

/-- What a builtin gives back. -/
def imageAnswer (change : Procedure → Procedure) : Except Fault Value → Except Fault Value
  | .ok value => .ok (value.image change)
  | .error fault => .error (fault.image change)

variable {change : Procedure → Procedure}

theorem Value.image_of_isProcedure {value : Value} (data : value.isProcedure = false) : value.image change = value := by
  cases value with
  | procedure procedure => cases data
  | nothing | boolean | number | text => rfl

theorem Value.image_image (first second : Procedure → Procedure) (value : Value) :
    (value.image first).image second = value.image fun procedure => second (first procedure) := by
  cases value <;> rfl

theorem Fault.image_image (first second : Procedure → Procedure) (fault : Fault) :
    (fault.image first).image second = fault.image fun procedure => second (first procedure) := by
  cases fault with
  | wrongType expected value => exact congrArg (Fault.wrongType expected) (value.image_image first second)
  | unknownName | badCall | badTarget | stream => rfl

theorem Value.first_image (values : List Value) :
    (values.map (Value.image change)).headD .nothing = (values.headD .nothing).image change := by
  cases values <;> rfl

theorem Value.describe_image (named : ∀ procedure, (change procedure).describe = procedure.describe) (value : Value) :
    (value.image change).describe = value.describe := by
  cases value with
  | procedure procedure => exact named procedure
  | nothing | boolean | number | text => rfl

/-! ### Bindings -/

namespace Bindings

def image (change : Procedure → Procedure) (bindings : Bindings) : Bindings :=
  bindings.map fun entry => (entry.1, entry.2.image change)

theorem image_image (first second : Procedure → Procedure) (bindings : Bindings) :
    (bindings.image first).image second = bindings.image fun procedure => second (first procedure) := by
  simp [image, Value.image_image]

theorem find?_image (bindings : Bindings) (name : String) :
    (bindings.image change).find? name = (bindings.find? name).map (Value.image change) := by
  unfold image
  induction bindings with
  | nil => rfl
  | cons first rest ih =>
    simp only [List.map_cons, find?]
    split
    · rfl
    · exact ih

theorem insert_image (bindings : Bindings) (name : String) (value : Value) :
    (bindings.insert name value).image change = (bindings.image change).insert name (value.image change) := by
  unfold image
  induction bindings with
  | nil => rfl
  | cons first rest ih =>
    simp only [List.map_cons, insert]
    split
    · rfl
    · exact congrArg _ ih

end Bindings

/-! ### Builtins -/

theorem Value.expectNumber_image (value : Value) :
    (value.image change).expectNumber = value.expectNumber.mapError (Fault.image change) := by
  cases value <;> rfl

theorem Value.compare_image (left right : Value) :
    (left.image change).compare (right.image change) = (left.compare right).mapError (Fault.image change) := by
  cases left <;> cases right <;> rfl

theorem Value.toNumber_image (value : Value) :
    (value.image change).toNumber = value.toNumber.mapError (Fault.image change) := by
  cases value with
  | text t =>
    simp only [image, toNumber]
    split <;> rfl
  | nothing | boolean | number | procedure => rfl

theorem Operator.apply_image (operator : Operator) (left right : Value) :
    operator.apply (left.image change) (right.image change) = imageAnswer change (operator.apply left right) := by
  unfold apply
  simp only [Value.compare_image, Value.expectNumber_image]
  split
  · cases left.compare right <;> rfl
  · cases left.compare right <;> rfl
  · cases left.expectNumber with
    | error fault => rfl
    | ok a =>
      cases right.expectNumber with
      | error fault => rfl
      | ok b =>
        delta Except.mapError
        simp only [bind, Except.bind]
        split
        · rename_i value computed
          simp only [imageAnswer, Value.image_of_isProcedure (Value.isProcedure_of_isScalar (compute?_scalar computed))]
        · rfl

/-- The relation between streams lets nothing tell them apart: whatever is written or read, both answer alike. -/
structure Streams.Congruent (related : Streams → Streams → Prop) : Prop where
  write : ∀ first second text, related first second → (second.write text).1 = (first.write text).1 ∧
    related (first.write text).2 (second.write text).2
  readLine : ∀ first second, related first second → second.readLine.1 = first.readLine.1 ∧
    related first.readLine.2 second.readLine.2

theorem Streams.congruent_eq : Streams.Congruent Eq := by
  refine ⟨?_, ?_⟩
  · rintro first second text rfl
    exact ⟨rfl, rfl⟩
  · rintro first second rfl
    exact ⟨rfl, rfl⟩

/-- A relation between texts that appending keeps holds between texts joined of related parts. -/
theorem Text.join_related {related : String → String → Prop}
    (append : ∀ {front back front' back' : String}, related front front' → related back back' →
      related (front ++ back) (front' ++ back'))
    (empty : related "" "") {α : Type} {one other : α → String} (items : List α)
    (each : ∀ item, related (one item) (other item)) :
    related (String.join (items.map one)) (String.join (items.map other)) := by
  -- The texts are joined from the left, so the texts joined so far are part of the statement.
  have joined : ∀ (front front' : String), related front front' →
      related ((items.map one).foldl (· ++ ·) front) ((items.map other).foldl (· ++ ·) front') := by
    induction items with
    | nil => exact fun _ _ alike => alike
    | cons item rest ih => exact fun front front' alike => ih _ _ (append alike (each item))
  exact joined "" "" empty

/-- The same streams, but for the texts written. The sinks are without bound, since related texts may differ in
length. -/
structure Streams.Similar (texts : String → String → Prop) (first second : Streams) : Prop where
  written : texts first.output.written second.output.written
  room : first.output.room = none ∧ second.output.room = none
  error : second.error = first.error
  input : second.input = first.input

namespace Streams.Similar

variable {texts : String → String → Prop} {first second : Streams}

theorem write (similar : first.Similar texts second)
    (append : ∀ {front back front' back' : String}, texts front front' → texts back back' →
      texts (front ++ back) (front' ++ back'))
    {text twin : String} (same : texts text twin) :
    (second.write twin).1 = (first.write text).1 ∧ (first.write text).2.Similar texts (second.write twin).2 := by
  obtain ⟨⟨written, _⟩, error, input⟩ := first
  obtain ⟨⟨written', _⟩, error', input'⟩ := second
  obtain ⟨before, ⟨rfl, rfl⟩, rfl, rfl⟩ := similar
  exact ⟨rfl, append before same, ⟨rfl, rfl⟩, rfl, rfl⟩

theorem readLine (similar : first.Similar texts second) :
    second.readLine.1 = first.readLine.1 ∧ first.readLine.2.Similar texts second.readLine.2 := by
  obtain ⟨_, _, _⟩ := first
  obtain ⟨output, error, lines⟩ := second
  obtain ⟨same, room, rfl, rfl⟩ := similar
  rcases lines with _ | ⟨_ | line, rest⟩ <;> exact ⟨rfl, same, room, rfl, rfl⟩

end Streams.Similar

namespace Action

variable {related : Streams → Streams → Prop} {first second : Streams}

theorem writing_image (change : Procedure → Procedure) {text twin : String}
    (written : (second.write twin).1 = (first.write text).1 ∧ related (first.write text).2 (second.write twin).2)
    (value : Value) :
    (writing second twin (value.image change)).1 = imageAnswer change (writing first text value).1 ∧
      related (writing first text value).2 (writing second twin (value.image change)).2 := by
  obtain ⟨same, after⟩ := written
  unfold writing
  refine ⟨?_, after⟩
  dsimp only
  rw [same]
  cases (first.write text).1 <;> rfl

theorem answer_image (congruent : Streams.Congruent related) (alike : related first second) :
    (answer second).1 = imageAnswer change (answer first).1 ∧ related (answer first).2 (answer second).2 := by
  obtain ⟨same, after⟩ := congruent.readLine first second alike
  unfold answer
  refine ⟨?_, after⟩
  dsimp only
  rw [same]
  rcases first.readLine.1 with _ | _ | _ <;> rfl

/-- Only `debug` looks into procedures. -/
theorem run_image (named : ∀ procedure, (change procedure).describe = procedure.describe)
    (congruent : Streams.Congruent related) (alike : related first second) {action : Action}
    (blind : action ≠ .inspect) (arguments : List Value) :
    (action.run second (arguments.map (Value.image change))).1 = imageAnswer change (action.run first arguments).1 ∧
      related (action.run first arguments).2 (action.run second (arguments.map (Value.image change))).2 := by
  cases action with
  | display =>
    have texts : (arguments.map (Value.image change)).map Value.describe = arguments.map Value.describe := by
      simp [Function.comp_def, Value.describe_image named]
    simp only [run, texts]
    exact writing_image change (congruent.write first second _ alike) .nothing
  | inspect => exact absurd rfl blind
  | ask =>
    cases arguments with
    | nil => exact answer_image congruent alike
    | cons prompt rest =>
      have written := writing_image change (congruent.write first second prompt.describe alike) .nothing
      simp only [run, List.map_cons, Value.describe_image named]
      simp only [Value.image] at written
      generalize writing first prompt.describe .nothing = one at written ⊢
      generalize writing second prompt.describe .nothing = two at written ⊢
      obtain ⟨result, streams⟩ := one
      obtain ⟨_, after⟩ := two
      obtain ⟨rfl, related⟩ := written
      cases result with
      | error fault => exact ⟨rfl, related⟩
      | ok value => exact answer_image congruent related
  | number =>
    simp only [run]
    rcases arguments with _ | ⟨value, _ | ⟨next, rest⟩⟩
    · exact ⟨rfl, alike⟩
    · simp only [List.map_cons, List.map_nil, Value.toNumber_image]
      refine ⟨?_, alike⟩
      cases value.toNumber <;> rfl
    · simp only [List.map_cons, List.length_cons, List.length_map]
      exact ⟨rfl, alike⟩
  | operate operator =>
    simp only [run]
    rcases arguments with _ | ⟨left, _ | ⟨right, _ | ⟨next, rest⟩⟩⟩
    · exact ⟨rfl, alike⟩
    · exact ⟨rfl, alike⟩
    · exact ⟨operator.apply_image left right, alike⟩
    · simp only [List.map_cons, List.length_cons, List.length_map]
      exact ⟨rfl, alike⟩

end Action
end Parlance
