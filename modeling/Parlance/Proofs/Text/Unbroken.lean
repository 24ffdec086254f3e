import Parlance.Proofs.Number
import Parlance.Proofs.Text.Bytes
import Parlance.Value.Inspect

/-! Texts that stay on one line. A line of any input is such a text, and so is whatever is written out in full, since
quoting escapes the line feed; what is shown as it is stays on its line if the texts and the names in it do. -/
namespace Parlance

namespace Text

/-- There is no line feed in the text. -/
def Unbroken (text : String) : Prop :=
  '\n' ∉ text.toList

instance (text : String) : Decidable (Unbroken text) :=
  inferInstanceAs (Decidable ('\n' ∉ text.toList))

variable {items : List String}

theorem unbroken_append {front back : String} : Unbroken (front ++ back) ↔ Unbroken front ∧ Unbroken back := by
  simp [Unbroken]

theorem unbroken_intercalate {separator : String} (separated : Unbroken separator)
    (unbroken : ∀ item ∈ items, Unbroken item) :
    Unbroken (separator.intercalate items) := by
  induction items with
  | nil =>
    rw [String.intercalate_nil]
    decide
  | cons item rest ih =>
    obtain ⟨here, later⟩ := List.forall_mem_cons.mp unbroken
    cases rest with
    | nil =>
      rw [String.intercalate_singleton]
      exact here
    | cons next further =>
      rw [String.intercalate_cons_cons, unbroken_append, unbroken_append]
      exact ⟨⟨here, separated⟩, ih later⟩

/-! ### Lines of input -/

theorem feed_not_mem_splitLinesFrom {α : Type} [DecidableEq α] {feed ret : α} {seen : List α} (free : feed ∉ seen)
    (symbols : List α) : ∀ line ∈ splitLinesFrom feed ret seen symbols, feed ∉ line := by
  induction symbols generalizing seen with
  | nil =>
    rw [splitLinesFrom]
    split
    · exact List.forall_mem_nil _
    · exact List.forall_mem_singleton.mpr fun inside => free (List.mem_reverse.mp inside)
  | cons c rest ih =>
    rw [splitLinesFrom]
    split
    · refine List.forall_mem_cons.mpr ⟨?_, ih List.not_mem_nil⟩
      intro inside
      have kept := List.mem_reverse.mp inside
      split at kept
      · exact free (List.mem_of_mem_tail kept)
      · exact free kept
    · rename_i other
      exact ih (List.not_mem_cons_of_ne_of_not_mem (Ne.symm other) free)

theorem unbroken_fromUTF8 {bytes : List UInt8} {text : String} (free : 10 ∉ bytes)
    (decoded : String.fromUTF8? ⟨bytes.toArray⟩ = some text) : Unbroken text := by
  intro inside
  have encoded := encode_of_fromUTF8? decoded
  refine free (encoded ▸ List.mem_flatMap.mpr ⟨'\n', inside, ?_⟩)
  exact List.mem_singleton.mpr rfl

end Text

theorem RawLine.unbroken_ofBytes {bytes : ByteArray} {line : String} (member : some line ∈ ofBytes bytes) :
    Text.Unbroken line := by
  obtain ⟨symbols, cut, decoded⟩ := List.mem_map.mp member
  exact Text.unbroken_fromUTF8 (Text.feed_not_mem_splitLinesFrom List.not_mem_nil _ symbols cut) decoded

/-! ### What is written out in full -/

namespace Text

theorem unbroken_of_isDigit {digits : String} (given : ∀ c ∈ digits.toList, c.isDigit = true) : Unbroken digits :=
  fun inside => absurd (given '\n' inside) (by decide)

theorem unbroken_toString (n : Nat) : Unbroken (toString n) := by
  refine unbroken_of_isDigit fun c member => ?_
  rw [Number.toList_toString] at member
  exact Nat.isDigit_of_mem_toDigits (by decide) (by decide) member

theorem feed_not_mem_toDigits (n : Nat) : '\n' ∉ Nat.toDigits 16 n := by
  have other : ∀ digit < 16, '\n' ≠ Nat.digitChar digit := by decide
  induction n using Nat.strongRecOn with
  | _ n ih =>
    rw [Nat.toDigits_eq_if (by decide)]
    split
    · rename_i small
      exact fun inside => other n small (List.mem_singleton.mp inside)
    · intro inside
      rcases List.mem_append.mp inside with front | last
      · exact ih (n / 16) (by omega) front
      · exact other (n % 16) (by omega) (List.mem_singleton.mp last)

theorem feed_not_mem_escaped (c : Char) : '\n' ∉ escaped c := by
  by_cases feed : c = '\n'
  · subst feed
    decide
  · unfold escaped
    iterate 5
      split
      · decide
    split
    · intro inside
      rcases List.mem_append.mp inside with front | closing
      · rcases List.mem_append.mp front with opening | digits
        · exact absurd opening (by decide)
        · exact feed_not_mem_toDigits _ digits
      · exact absurd closing (by decide)
    · exact fun inside => feed (List.mem_singleton.mp inside).symm

theorem unbroken_quoted (text : String) : Unbroken (quoted text) := by
  rw [Unbroken, quoted, String.toList_ofList]
  intro inside
  rcases List.mem_append.mp inside with front | closing
  · rcases List.mem_cons.mp front with opening | within
    · exact absurd opening (by decide)
    · obtain ⟨c, -, here⟩ := List.mem_flatMap.mp within
      exact feed_not_mem_escaped c here
  · exact absurd closing (by decide)

theorem unbroken_listed (unbroken : ∀ item ∈ items, Unbroken item) : Unbroken (listed items) := by
  rw [listed, unbroken_append, unbroken_append]
  exact ⟨⟨by decide, unbroken_intercalate (by decide) unbroken⟩, by decide⟩

theorem unbroken_field {name value : String} {rest : List (String × String)} (named : Unbroken name)
    (valued : Unbroken value) (others : ∀ field ∈ rest, Unbroken field.1 ∧ Unbroken field.2) :
    ∀ field ∈ (name, value) :: rest, Unbroken field.1 ∧ Unbroken field.2 :=
  List.forall_mem_cons.mpr ⟨⟨named, valued⟩, others⟩

theorem unbroken_line (line : Nat) : ∀ field ∈ [("line", toString line)], Unbroken field.1 ∧ Unbroken field.2 :=
  unbroken_field (by decide) (unbroken_toString line) (List.forall_mem_nil _)

theorem unbroken_record {name : String} {fields : List (String × String)} (named : Unbroken name)
    (unbroken : ∀ field ∈ fields, Unbroken field.1 ∧ Unbroken field.2) : Unbroken (record name fields) := by
  rw [record, unbroken_append, unbroken_append, unbroken_append]
  refine ⟨⟨⟨named, by decide⟩, unbroken_intercalate (by decide) ?_⟩, by decide⟩
  intro item member
  obtain ⟨field, given, rfl⟩ := List.mem_map.mp member
  dsimp only
  rw [unbroken_append, unbroken_append]
  exact ⟨⟨(unbroken field given).1, by decide⟩, (unbroken field given).2⟩

end Text

open Text

theorem Number.unbroken_describe (n : Number) : Unbroken n.describe := by
  rw [describe]
  cases n.toInt with
  | ofNat m => exact unbroken_toString m
  | negSucc m => exact unbroken_append.mpr ⟨by decide, unbroken_toString (m + 1)⟩

theorem Literal.unbroken_inspect (literal : Literal) : Unbroken literal.inspect := by
  cases literal with
  | nothing => decide
  | boolean value => cases value <;> decide
  | number n =>
    rw [inspect, unbroken_append, unbroken_append]
    exact ⟨⟨by decide, n.unbroken_describe⟩, by decide⟩
  | text t =>
    rw [inspect, unbroken_append, unbroken_append]
    exact ⟨⟨by decide, unbroken_quoted t⟩, by decide⟩

namespace Node

theorem unbroken_quotedAll (names : List String) : Unbroken (listed (names.map quoted)) := by
  refine unbroken_listed fun item member => ?_
  obtain ⟨name, -, rfl⟩ := List.mem_map.mp member
  exact unbroken_quoted name

mutual

theorem unbroken_inspect : (node : Node) → Unbroken node.inspect
  | .call callee arguments line =>
    unbroken_record (by decide) <| unbroken_field (by decide) (unbroken_inspect callee) <|
      unbroken_field (by decide) (unbroken_listed (unbroken_inspectAll arguments)) (unbroken_line line)
  | .identifier name line =>
    unbroken_record (by decide) <| unbroken_field (by decide) (unbroken_quoted name) (unbroken_line line)
  | .literal value line =>
    unbroken_record (by decide) <| unbroken_field (by decide) value.unbroken_inspect (unbroken_line line)
  | .assignment target value line =>
    unbroken_record (by decide) <| unbroken_field (by decide) (unbroken_inspect target) <|
      unbroken_field (by decide) (unbroken_inspect value) (unbroken_line line)
  | .conditional condition thenBlock elseBlock line =>
    unbroken_record (by decide) <| unbroken_field (by decide) (unbroken_inspect condition) <|
      unbroken_field (by decide) (unbroken_listed (unbroken_inspectAll thenBlock)) <|
        unbroken_field (by decide) (unbroken_listed (unbroken_inspectAll elseBlock)) (unbroken_line line)
  | .loop condition body otherwise line =>
    unbroken_record (by decide) <| unbroken_field (by decide) (unbroken_inspect condition) <|
      unbroken_field (by decide) (unbroken_listed (unbroken_inspectAll body)) <|
        unbroken_field (by decide) (unbroken_listed (unbroken_inspectAll otherwise)) (unbroken_line line)
  | .breaks line => unbroken_record (by decide) (unbroken_line line)
  | .definition name params body _ line => by
    refine unbroken_append.mpr ⟨unbroken_append.mpr ⟨by decide, ?_⟩, by decide⟩
    refine unbroken_record (by decide) (unbroken_field (by decide) (unbroken_quoted name) ?_)
    refine unbroken_field (by decide) (unbroken_quotedAll params) ?_
    exact unbroken_field (by decide) (unbroken_listed (unbroken_inspectAll body)) (unbroken_line line)
  | .returns value line =>
    unbroken_record (by decide) <| unbroken_field (by decide) (unbroken_inspect value) (unbroken_line line)

theorem unbroken_inspectAll : (nodes : List Node) → ∀ text ∈ inspectAll nodes, Unbroken text
  | [] => List.forall_mem_nil _
  | node :: rest => List.forall_mem_cons.mpr ⟨unbroken_inspect node, unbroken_inspectAll rest⟩

end

end Node

theorem Arity.unbroken_inspect (arity : Arity) : Unbroken arity.inspect := by
  cases arity with
  | exact n => exact unbroken_append.mpr ⟨unbroken_append.mpr ⟨by decide, unbroken_toString n⟩, by decide⟩
  | oneOf counts =>
    refine unbroken_append.mpr ⟨unbroken_append.mpr ⟨by decide, unbroken_listed fun item member => ?_⟩, by decide⟩
    obtain ⟨n, -, rfl⟩ := List.mem_map.mp member
    exact unbroken_toString n
  | any => decide

theorem ScopeId.unbroken_inspect (id : ScopeId) : Unbroken id.inspect :=
  unbroken_append.mpr ⟨unbroken_append.mpr ⟨by decide, unbroken_toString id.index⟩, by decide⟩

theorem Builtin.unbroken_inspect (builtin : Builtin) : Unbroken builtin.inspect := by
  refine unbroken_append.mpr ⟨unbroken_append.mpr ⟨?_, builtin.arity.unbroken_inspect⟩, by decide⟩
  exact unbroken_append.mpr ⟨unbroken_append.mpr ⟨by decide, unbroken_quoted builtin.name⟩, by decide⟩

theorem Procedure.unbroken_inspect (procedure : Procedure) : Unbroken procedure.inspect := by
  cases procedure with
  | builtin b =>
    rw [inspect, unbroken_append, unbroken_append]
    exact ⟨⟨by decide, b.unbroken_inspect⟩, by decide⟩
  | closure c =>
    rw [inspect, unbroken_append, unbroken_append]
    refine ⟨⟨by decide, ?_⟩, by decide⟩
    refine unbroken_record (by decide) (unbroken_field (by decide) (unbroken_quoted c.name) ?_)
    refine unbroken_field (by decide) (Node.unbroken_quotedAll c.params) ?_
    refine unbroken_field (by decide) (unbroken_listed (Node.unbroken_inspectAll c.body)) ?_
    exact unbroken_field (by decide) c.scope.unbroken_inspect (List.forall_mem_nil _)

namespace Value

theorem unbroken_inspect (value : Value) : Unbroken value.inspect := by
  cases value with
  | nothing => exact Literal.nothing.unbroken_inspect
  | boolean b => exact (Literal.boolean b).unbroken_inspect
  | number n => exact (Literal.number n).unbroken_inspect
  | text t => exact (Literal.text t).unbroken_inspect
  | procedure p => exact unbroken_append.mpr ⟨unbroken_append.mpr ⟨by decide, p.unbroken_inspect⟩, by decide⟩

/-! ### What is shown as it is -/

/-- There is no line feed in the value if it is a text, and none in its name if it is a procedure. -/
def Unbroken : Value → Prop
  | .text t => Text.Unbroken t
  | .procedure p => Text.Unbroken p.name
  | .nothing | .boolean _ | .number _ => True

theorem unbroken_describe {value : Value} (unbroken : value.Unbroken) : Text.Unbroken value.describe := by
  cases value with
  | nothing => decide
  | boolean b => cases b <;> decide
  | number n => exact n.unbroken_describe
  | text t => exact unbroken
  | procedure p =>
    cases p with
    | builtin b => exact unbroken_append.mpr ⟨unbroken_append.mpr ⟨by decide, unbroken⟩, by decide⟩
    | closure c => exact unbroken_append.mpr ⟨unbroken_append.mpr ⟨by decide, unbroken⟩, by decide⟩

end Value
end Parlance
