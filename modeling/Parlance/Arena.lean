import Parlance.Value

/-! All scopes of a session in one arena. A scope binds names to values and points to the scope around it. A released
scope's slot is used again, the one released last first; a captured scope is never released. -/
namespace Parlance

/-- Names with the values bound to them, each name at most once. -/
abbrev Bindings := List (String × Value)

namespace Bindings

def find? (bindings : Bindings) (name : String) : Option Value :=
  match bindings with
  | [] => none
  | (bound, value) :: rest => if bound = name then some value else find? rest name

/-- Binds the name, in place of what it was bound to before. -/
def insert (bindings : Bindings) (name : String) (value : Value) : Bindings :=
  match bindings with
  | [] => [(name, value)]
  | (bound, old) :: rest =>
    if bound = name then (name, value) :: rest else (bound, old) :: insert rest name value

theorem find?_insert (bindings : Bindings) (name other : String) (value : Value) :
    (insert bindings name value).find? other = if name = other then some value else bindings.find? other := by
  induction bindings with
  | nil => rfl
  | cons first rest ih =>
    obtain ⟨bound, old⟩ := first
    by_cases same : bound = name
    · by_cases wanted : name = other <;> simp [insert, find?, same, wanted]
    · by_cases wanted : bound = other
      · subst wanted
        have different : name ≠ bound := fun equal => same equal.symm
        simp [insert, find?, same, different]
      · simp [insert, find?, same, wanted, ih]

end Bindings

structure Scope where
  bindings : Bindings
  parent : Option ScopeId
  captured : Bool
deriving Repr

def Scope.empty : Scope :=
  ⟨[], none, false⟩

structure Arena where
  slots : Array Scope
  /-- The released slots, the last one first. -/
  free : List Nat
deriving Repr

namespace Arena

def start : Arena :=
  ⟨#[Scope.empty], []⟩

def root : ScopeId :=
  ⟨0⟩

def get? (arena : Arena) (id : ScopeId) : Option Scope :=
  arena.slots[id.index]?

/-- A new scope inside `parent`. -/
def child (arena : Arena) (parent : ScopeId) : ScopeId × Arena :=
  let scope : Scope := ⟨[], some parent, false⟩
  match arena.free with
  | slot :: free => (⟨slot⟩, ⟨arena.slots.setIfInBounds slot scope, free⟩)
  | [] => (⟨arena.slots.size⟩, ⟨arena.slots.push scope, []⟩)

def define (arena : Arena) (id : ScopeId) (name : String) (value : Value) : Arena :=
  ⟨arena.slots.modify id.index fun scope => { scope with bindings := scope.bindings.insert name value },
    arena.free⟩

/-- Looks through at most `depth` scopes, from `id` outward. -/
def lookupWithin (arena : Arena) (name : String) (depth : Nat) (id : ScopeId) : Option Value :=
  match depth with
  | 0 => none
  | depth + 1 =>
    match arena.get? id with
    | none => none
    | some scope =>
      match scope.bindings.find? name with
      | some value => some value
      | none =>
        match scope.parent with
        | none => none
        | some parent => arena.lookupWithin name depth parent

/-- The value of a name as seen from a scope. No chain of scopes is longer than the arena is large. -/
def lookup (arena : Arena) (id : ScopeId) (name : String) : Option Value :=
  arena.lookupWithin name arena.slots.size id

def capture (arena : Arena) (id : ScopeId) : Arena :=
  ⟨arena.slots.modify id.index fun scope => { scope with captured := true }, arena.free⟩

/-- Whether a scope is given back at the end of its invocation. -/
def isReleasable (arena : Arena) (id : ScopeId) : Bool :=
  id ≠ root && !((arena.get? id).any (·.captured))

def release (arena : Arena) (id : ScopeId) : Arena :=
  if arena.isReleasable id then
    ⟨arena.slots.setIfInBounds id.index Scope.empty, id.index :: arena.free⟩
  else arena

/-- How many scopes are alive. -/
def live (arena : Arena) : Nat :=
  arena.slots.size - arena.free.length

theorem get?_define (arena : Arena) (id other : ScopeId) (name : String) (value : Value) :
    (arena.define id name value).get? other =
      if id = other then
        (arena.get? other).map fun scope => { scope with bindings := scope.bindings.insert name value }
      else arena.get? other := by
  by_cases same : id = other
  · simp [define, get?, Array.getElem?_modify, same]
  · have different : id.index ≠ other.index := fun equal => same (by cases id; cases other; simp_all)
    simp [define, get?, Array.getElem?_modify, same, different]

theorem get?_capture (arena : Arena) (id other : ScopeId) :
    (arena.capture id).get? other =
      if id = other then (arena.get? other).map fun scope => { scope with captured := true }
      else arena.get? other := by
  by_cases same : id = other
  · simp [capture, get?, Array.getElem?_modify, same]
  · have different : id.index ≠ other.index := fun equal => same (by cases id; cases other; simp_all)
    simp [capture, get?, Array.getElem?_modify, same, different]

@[simp] theorem live_define (arena : Arena) (id : ScopeId) (name : String) (value : Value) :
    (arena.define id name value).live = arena.live := by
  simp [define, live]

@[simp] theorem live_capture (arena : Arena) (id : ScopeId) : (arena.capture id).live = arena.live := by
  simp [capture, live]

end Arena
end Parlance
