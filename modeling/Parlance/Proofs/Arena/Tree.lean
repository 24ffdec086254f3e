import Parlance.Arena

/-! Scopes as a tree, without slots. Every scope has an identity that no other has had or will have, the number of scopes
opened before it, so the scopes around a scope are among the older ones. -/
namespace Parlance

/-- The entry that was added after `id` others. Entries are added at the front. -/
def numbered? {α : Type} : List α → Nat → Option α
  | [], _ => none
  | entry :: older, id => if id = older.length then some entry else numbered? older id

/-- Changes the entry that was added after `id` others. -/
def amendNumbered {α : Type} (change : α → α) (id : Nat) : List α → List α
  | [] => []
  | entry :: older => if id = older.length then change entry :: older else entry :: amendNumbered change id older

section Entries

variable {α : Type} {entries : List α} {id other : Nat} {change : α → α}

theorem numbered?_newest (entry : α) (older : List α) : numbered? (entry :: older) older.length = some entry :=
  if_pos rfl

theorem numbered?_older (entry : α) (inside : id < entries.length) :
    numbered? (entry :: entries) id = numbered? entries id :=
  if_neg (Nat.ne_of_lt inside)

theorem lt_of_numbered? {entry : α} (found : numbered? entries id = some entry) : id < entries.length := by
  induction entries with
  | nil => cases found
  | cons newest older ih =>
    rw [numbered?] at found
    split at found
    · rename_i same
      exact same ▸ Nat.lt_succ_self _
    · exact Nat.lt_succ_of_lt (ih found)

theorem exists_numbered? (inside : id < entries.length) : ∃ entry, numbered? entries id = some entry := by
  induction entries with
  | nil => exact absurd inside id.not_lt_zero
  | cons newest older ih =>
    rw [numbered?]
    split
    · exact ⟨newest, rfl⟩
    · rename_i different
      exact ih (Nat.lt_of_le_of_ne (Nat.le_of_lt_succ inside) different)

theorem mem_of_numbered? {entry : α} (found : numbered? entries id = some entry) : entry ∈ entries := by
  induction entries with
  | nil => cases found
  | cons newest older ih =>
    rw [numbered?] at found
    split at found
    · cases found
      exact List.mem_cons_self
    · exact List.mem_cons_of_mem _ (ih found)

@[simp] theorem length_amendNumbered : (amendNumbered change id entries).length = entries.length := by
  induction entries with
  | nil => rfl
  | cons newest older ih =>
    rw [amendNumbered]
    split
    · rfl
    · rw [List.length_cons, ih, List.length_cons]

theorem numbered?_amendNumbered : numbered? (amendNumbered change id entries) other =
    if id = other then (numbered? entries other).map change else numbered? entries other := by
  induction entries with
  | nil => simp [amendNumbered, numbered?]
  | cons newest older ih =>
    by_cases here : id = older.length
    · by_cases same : other = older.length
      · simp [amendNumbered, numbered?, here, same]
      · simp [amendNumbered, numbered?, here, same, Ne.symm same]
    · by_cases same : other = older.length
      · simp [amendNumbered, numbered?, here, same]
      · simp [amendNumbered, numbered?, here, same, ih]

end Entries

/-- A scope of the tree. It stays in the tree after its life. -/
structure Branch where
  bindings : Bindings
  parent : Option Nat
  captured : Bool
  alive : Bool

/-- All scopes there have been, the one opened last first. -/
abbrev ScopeTree := List Branch

/-- What can be done with scopes that are named by their identities. -/
inductive Operation where
  | child (parent : Nat)
  | define (scope : Nat) (name : String) (value : Value)
  | lookup (scope : Nat) (name : String)
  | capture (scope : Nat)
  | release (scope : Nat)

namespace ScopeTree

def start : ScopeTree :=
  [⟨[], none, false, true⟩]

/-- What the scope binds the name to, or else the nearest scope around it that does. -/
def lookup (name : String) : ScopeTree → Nat → Option Value
  | [], _ => none
  | branch :: older, id =>
    if id = older.length then (branch.bindings.find? name).or (branch.parent.bind fun parent => lookup name older parent)
    else lookup name older id

def isAlive (tree : ScopeTree) (id : Nat) : Bool :=
  (numbered? tree id).any (·.alive)

/-- Whether a release takes effect: the scope is neither the root nor captured. -/
def isReleasable (tree : ScopeTree) (id : Nat) : Bool :=
  id ≠ 0 && !((numbered? tree id).any (·.captured))

def step (tree : ScopeTree) : Operation → ScopeTree
  | .child parent => ⟨[], some parent, false, true⟩ :: tree
  | .define scope name value =>
    amendNumbered (fun branch => { branch with bindings := branch.bindings.insert name value }) scope tree
  | .lookup .. => tree
  | .capture scope => amendNumbered (fun branch => { branch with captured := true }) scope tree
  | .release scope =>
    if tree.isReleasable scope then amendNumbered (fun branch => { branch with alive := false }) scope tree else tree

def answer? (tree : ScopeTree) : Operation → Option (Option Value)
  | .lookup scope name => some (tree.lookup name scope)
  | .child _ | .define .. | .capture _ | .release _ => none

/-- What the lookups among the operations find. -/
def answers (tree : ScopeTree) : List Operation → List (Option Value)
  | [] => []
  | operation :: rest => (tree.answer? operation).toList ++ answers (tree.step operation) rest

/-- How many releases among the operations take effect. -/
def ended (tree : ScopeTree) : List Operation → Nat
  | [] => 0
  | operation :: rest =>
    (match operation with
      | .release scope => if tree.isReleasable scope then 1 else 0
      | .child _ | .define .. | .lookup .. | .capture _ => 0) + ended (tree.step operation) rest

/-- The scope is alive; and if it is given back, no scope that is alive has it for its parent. -/
def Permits (tree : ScopeTree) : Operation → Prop
  | .child scope | .define scope _ _ | .lookup scope _ | .capture scope => tree.isAlive scope = true
  | .release scope =>
    tree.isAlive scope = true ∧
      (tree.isReleasable scope = true → ∀ branch ∈ tree, branch.alive = true → branch.parent ≠ some scope)

/-- No operation is on a scope whose life is over, and none ends the life of a scope before its children's. -/
def Disciplined (tree : ScopeTree) : List Operation → Prop
  | [] => True
  | operation :: rest => tree.Permits operation ∧ Disciplined (tree.step operation) rest

instance (tree : ScopeTree) : (operation : Operation) → Decidable (tree.Permits operation)
  | .child _ | .define .. | .lookup .. | .capture _ => inferInstanceAs (Decidable (_ = true))
  | .release _ => inferInstanceAs (Decidable (_ ∧ _))

instance decidableDisciplined : (tree : ScopeTree) → (operations : List Operation) → Decidable (tree.Disciplined operations)
  | _, [] => .isTrue trivial
  | tree, operation :: rest =>
    have := decidableDisciplined (tree.step operation) rest
    inferInstanceAs (Decidable (_ ∧ _))

/-- Where the parent is older, the search goes on from it. -/
theorem lookup_eq {tree : ScopeTree} {id : Nat} {branch : Branch} (found : numbered? tree id = some branch)
    (older : ∀ parent, branch.parent = some parent → parent < id) (name : String) :
    tree.lookup name id = (branch.bindings.find? name).or (branch.parent.bind fun parent => tree.lookup name parent) := by
  induction tree with
  | nil => cases found
  | cons newest tree ih =>
    have further : ∀ parent, branch.parent = some parent → id ≤ tree.length →
        lookup name (newest :: tree) parent = lookup name tree parent := by
      intro parent link inside
      have below := older parent link
      rw [lookup, if_neg (by omega)]
    rw [numbered?] at found
    by_cases same : id = tree.length
    · rw [if_pos same] at found
      cases found
      rw [lookup, if_pos same]
      refine congrArg _ (Option.bind_congr fun parent link => ?_)
      exact (further parent link (Nat.le_of_eq same)).symm
    · rw [if_neg same] at found
      rw [lookup, if_neg same, ih found]
      refine congrArg _ (Option.bind_congr fun parent link => ?_)
      exact (further parent link (Nat.le_of_lt (lt_of_numbered? found))).symm

end ScopeTree
end Parlance
