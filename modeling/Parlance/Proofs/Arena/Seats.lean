import Parlance.Proofs.Arena.Lifetime

/-! Invocations at work each own a live scope; the base scope, if there is one, is none of theirs. What an operation does
to one scope spares all others. -/
namespace Parlance.Arena

/-- There is a live scope for the base and one more for each invocation. -/
structure Seats (arena : Arena) (base : Option ScopeId) (owned : List ScopeId) : Prop where
  tidy : arena.Tidy
  distinct : owned.Nodup
  alive : ∀ id ∈ owned, arena.Live id ∧ id ≠ root
  based : ∀ id, base = some id → arena.Live id ∧ id ∉ owned

/-- All live scopes but one stay alive and as they are. -/
def Spares (changed : ScopeId) (arena next : Arena) : Prop :=
  ∀ id, id ≠ changed → arena.Live id → next.Live id ∧ next.get? id = arena.get? id

variable {arena : Arena} {base : Option ScopeId} {owned : List ScopeId}

theorem Spares.trans {changed : ScopeId} {middle next : Arena} (first : Spares changed arena middle)
    (second : Spares changed middle next) : Spares changed arena next := by
  intro id different live
  obtain ⟨alive, same⟩ := first id different live
  obtain ⟨after, still⟩ := second id different alive
  exact ⟨after, still.trans same⟩

theorem spares_define (id : ScopeId) (name : String) (value : Value) : Spares id arena (arena.define id name value) := by
  intro other different live
  rw [live_define_iff, get?_define, if_neg (Ne.symm different)]
  exact ⟨live, rfl⟩

theorem spares_defineAll (id : ScopeId) (bindings : List (String × Value)) :
    Spares id arena (arena.defineAll id bindings) := by
  intro other different live
  rw [live_defineAll_iff, get?_defineAll, if_neg (Ne.symm different)]
  exact ⟨live, rfl⟩

theorem spares_capture (id : ScopeId) : Spares id arena (arena.capture id) := by
  intro other different live
  rw [live_capture_iff, get?_capture, if_neg (Ne.symm different)]
  exact ⟨live, rfl⟩

theorem spares_child (tidy : arena.Tidy) (parent : ScopeId) : Spares arena.vacant arena (arena.child parent).2 := by
  intro other different live
  rw [live_child_iff tidy, get?_child tidy, if_neg (Ne.symm different)]
  exact ⟨Or.inr live, rfl⟩

theorem spares_release {id : ScopeId} (live : arena.Live id) : Spares id arena (arena.release id) := by
  intro other different alive
  by_cases lasting : arena.Lasting id
  · rw [release_lasting lasting]
    exact ⟨alive, rfl⟩
  · rw [live_release_iff lasting, get?_release live lasting, if_neg (Ne.symm different)]
    exact ⟨⟨different, alive⟩, rfl⟩

theorem spares_enter (tidy : arena.Tidy) (parent : ScopeId) (bindings : List (String × Value)) :
    Spares arena.vacant arena ((arena.child parent).2.defineAll arena.vacant bindings) :=
  (spares_child tidy parent).trans (spares_defineAll _ _)

/-- An invocation that is over at once leaves no trace. -/
theorem spares_pass (tidy : arena.Tidy) (parent : ScopeId) (bindings : List (String × Value)) :
    Spares arena.vacant arena (((arena.child parent).2.defineAll arena.vacant bindings).release arena.vacant) :=
  (spares_enter tidy parent bindings).trans (spares_release (enter_live tidy parent bindings))

namespace Seats

theorem live (seats : arena.Seats base owned) {id : ScopeId} (works : owned.head?.or base = some id) :
    arena.Live id := by
  cases owned with
  | nil => exact (seats.based id works).1
  | cons first rest =>
    cases works
    exact (seats.alive id List.mem_cons_self).1

/-- A change that takes no scope away. -/
theorem amend {next : Arena} (seats : arena.Seats base owned) (tidy : next.Tidy)
    (stays : ∀ id, arena.Live id → next.Live id) : next.Seats base owned where
  tidy := tidy
  distinct := seats.distinct
  alive id member := ⟨stays id (seats.alive id member).1, (seats.alive id member).2⟩
  based id given := ⟨stays id (seats.based id given).1, (seats.based id given).2⟩

theorem define (seats : arena.Seats base owned) {id : ScopeId} (live : arena.Live id) (name : String)
    (value : Value) : (arena.define id name value).Seats base owned :=
  seats.amend (seats.tidy.define live name value) fun _ => (live_define_iff ..).mpr

theorem defineAll (seats : arena.Seats base owned) {id : ScopeId} (live : arena.Live id)
    (bindings : List (String × Value)) : (arena.defineAll id bindings).Seats base owned :=
  seats.amend (seats.tidy.defineAll live bindings) fun _ => (live_defineAll_iff ..).mpr

theorem capture (seats : arena.Seats base owned) {id : ScopeId} (live : arena.Live id) :
    (arena.capture id).Seats base owned :=
  seats.amend (seats.tidy.capture live) fun _ => (live_capture_iff ..).mpr

theorem child (seats : arena.Seats base owned) (parent : ScopeId) :
    (arena.child parent).2.Seats base (arena.vacant :: owned) := by
  have stays : ∀ id, arena.Live id → (arena.child parent).2.Live id :=
    fun id before => (live_child_iff seats.tidy parent id).mpr (Or.inr before)
  have fresh : ∀ id, arena.Live id → id ≠ arena.vacant := fun id before same => arena.vacant_not_live (same ▸ before)
  refine ⟨seats.tidy.child parent, ?_, ?_, ?_⟩
  · refine List.nodup_cons.mpr ⟨?_, seats.distinct⟩
    exact fun member => fresh _ (seats.alive _ member).1 rfl
  · intro id member
    rcases List.mem_cons.mp member with rfl | older
    · exact ⟨(live_child_iff seats.tidy parent _).mpr (Or.inl rfl), Ne.symm (fresh root seats.tidy.rooted)⟩
    · exact ⟨stays id (seats.alive id older).1, (seats.alive id older).2⟩
  · intro id given
    obtain ⟨before, outside⟩ := seats.based id given
    refine ⟨stays id before, ?_⟩
    intro member
    rcases List.mem_cons.mp member with same | older
    · exact fresh id before same
    · exact outside older

theorem release {id : ScopeId} (seats : arena.Seats base (id :: owned)) : (arena.release id).Seats base owned := by
  have once := List.nodup_cons.mp seats.distinct
  have live := (seats.alive id List.mem_cons_self).1
  have stays : ∀ other, other ≠ id → arena.Live other → (arena.release id).Live other :=
    fun other different before => (spares_release live other different before).1
  refine ⟨seats.tidy.release live, once.2, ?_, ?_⟩
  · intro other member
    obtain ⟨before, notRoot⟩ := seats.alive other (List.mem_cons_of_mem _ member)
    exact ⟨stays other (fun same => once.1 (same ▸ member)) before, notRoot⟩
  · intro other given
    obtain ⟨before, outside⟩ := seats.based other given
    rw [List.mem_cons, not_or] at outside
    exact ⟨stays other outside.1 before, outside.2⟩

end Seats
end Parlance.Arena
