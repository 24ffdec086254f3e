import Mathlib.Data.List.Nodup
import Mathlib.Data.List.Perm.Basic
import Parlance.Proofs.Arena.Lifetime

/-! How many scopes are alive. Opening a scope makes one more, and giving one back makes one less; where every scope but the
root is captured, the captured scopes are all there are besides the root. -/
namespace Parlance.Arena

variable {arena : Arena}

theorem Tidy.free_length_le (tidy : arena.Tidy) : arena.free.length ≤ arena.slots.size := by
  have inside : arena.free ⊆ List.range arena.slots.size :=
    fun slot free => List.mem_range.mpr (tidy.inside slot free)
  simpa using tidy.distinct.length_le_of_subset inside

theorem Tidy.free_length_lt (tidy : arena.Tidy) {id : ScopeId} (live : arena.Live id) :
    arena.free.length < arena.slots.size := by
  have distinct : (id.index :: arena.free).Nodup := List.nodup_cons.mpr ⟨live.2, tidy.distinct⟩
  have inside : id.index :: arena.free ⊆ List.range arena.slots.size := by
    intro slot member
    rcases List.mem_cons.mp member with rfl | free
    · exact List.mem_range.mpr live.1
    · exact List.mem_range.mpr (tidy.inside slot free)
  have counted := distinct.length_le_of_subset inside
  rwa [List.length_cons, List.length_range] at counted

@[simp] theorem live_defineAll (arena : Arena) (id : ScopeId) (bindings : List (String × Value)) :
    (arena.defineAll id bindings).live = arena.live := by
  induction bindings generalizing arena with
  | nil => rfl
  | cons entry rest ih => exact (ih (arena.define id entry.1 entry.2)).trans (live_define ..)

theorem live_child (tidy : arena.Tidy) (parent : ScopeId) : (arena.child parent).2.live = arena.live + 1 := by
  have bound := tidy.free_length_le
  obtain ⟨slots, free⟩ := arena
  cases free with
  | nil => simp [child, live]
  | cons slot rest =>
    simp only [List.length_cons] at bound
    simp only [child, live, Array.size_setIfInBounds, List.length_cons]
    omega

theorem live_release (tidy : arena.Tidy) {id : ScopeId} (alive : arena.Live id) (ends : ¬ arena.Lasting id) :
    (arena.release id).live + 1 = arena.live := by
  have bound := tidy.free_length_lt alive
  unfold release
  rw [if_pos ((isReleasable_iff arena id).mpr ends)]
  simp only [live, Array.size_setIfInBounds, List.length_cons]
  omega

/-! ### Which scopes are captured -/

theorem captured_defineAll_iff (arena : Arena) (id other : ScopeId) (bindings : List (String × Value)) :
    (arena.defineAll id bindings).Captured other ↔ arena.Captured other := by
  induction bindings generalizing arena with
  | nil => rfl
  | cons entry rest ih => exact (ih (arena.define id entry.1 entry.2)).trans (captured_define_iff ..)

theorem captured_capture_iff {id other : ScopeId} (different : other ≠ id) :
    (arena.capture id).Captured other ↔ arena.Captured other := by
  unfold Captured
  rw [get?_capture, if_neg (Ne.symm different)]

theorem captured_child_iff (tidy : arena.Tidy) (parent : ScopeId) {other : ScopeId} (different : other ≠ arena.vacant) :
    (arena.child parent).2.Captured other ↔ arena.Captured other := by
  unfold Captured
  rw [get?_child tidy, if_neg (Ne.symm different)]

theorem vacant_uncaptured (tidy : arena.Tidy) (parent : ScopeId) :
    ¬ (arena.child parent).2.Captured arena.vacant := by
  rintro ⟨scope, found, captured⟩
  rw [get?_child tidy, if_pos rfl] at found
  cases found
  cases captured

theorem captured_release_iff {id other : ScopeId} (alive : arena.Live id) (different : other ≠ id) :
    (arena.release id).Captured other ↔ arena.Captured other := by
  by_cases lasting : arena.Lasting id
  · rw [release_lasting lasting]
  · unfold Captured
    rw [get?_release alive lasting, if_neg (Ne.symm different)]

/-! ### Scopes that are opened -/

section

variable (tidy : arena.Tidy) (parent : ScopeId) (bindings : List (String × Value))
include tidy

theorem live_enter : ((arena.child parent).2.defineAll arena.vacant bindings).live = arena.live + 1 := by
  rw [live_defineAll, live_child tidy]

theorem captured_enter_iff {other : ScopeId} (alive : arena.Live other) :
    ((arena.child parent).2.defineAll arena.vacant bindings).Captured other ↔ arena.Captured other := by
  have different : other ≠ arena.vacant := fun same => arena.vacant_not_live (same ▸ alive)
  rw [captured_defineAll_iff, captured_child_iff tidy parent different]

theorem enter_uncaptured : ¬ ((arena.child parent).2.defineAll arena.vacant bindings).Captured arena.vacant := by
  rw [captured_defineAll_iff]
  exact vacant_uncaptured tidy parent

/-- A scope that is given back as soon as it is opened does not count. -/
theorem live_pass :
    (((arena.child parent).2.defineAll arena.vacant bindings).release arena.vacant).live = arena.live := by
  have opened := enter_live tidy parent bindings
  have tidied := (tidy.child parent).defineAll ((live_defineAll_iff ..).mp opened) bindings
  have ends : ¬ ((arena.child parent).2.defineAll arena.vacant bindings).Lasting arena.vacant := by
    rintro (rooted | captured)
    · exact arena.vacant_not_live (rooted ▸ tidy.rooted)
    · exact enter_uncaptured tidy parent bindings captured
  have fewer := live_release tidied opened ends
  rw [live_enter tidy] at fewer
  exact Nat.succ.inj fewer

theorem captured_pass_iff {other : ScopeId} (alive : arena.Live other) :
    (((arena.child parent).2.defineAll arena.vacant bindings).release arena.vacant).Captured other ↔
      arena.Captured other := by
  have different : other ≠ arena.vacant := fun same => arena.vacant_not_live (same ▸ alive)
  rw [captured_release_iff (enter_live tidy parent bindings) different, captured_enter_iff tidy parent bindings alive]

end

/-! ### All live scopes -/

instance (arena : Arena) (id : ScopeId) : Decidable (arena.Captured id) :=
  decidable_of_iff ((arena.get? id).any (·.captured) = true) (by simp [Captured, Option.any_eq_true])

/-- The number of captured scopes, the root apart. -/
def capturedInner (arena : Arena) : Nat :=
  (List.range arena.slots.size).countP fun slot => slot ≠ 0 ∧ arena.Captured ⟨slot⟩

theorem Tidy.live_eq_countP (tidy : arena.Tidy) :
    arena.live = (List.range arena.slots.size).countP fun slot => decide (arena.Live ⟨slot⟩) := by
  have freed : ((List.range arena.slots.size).filter (· ∈ arena.free)).Perm arena.free := by
    refine (List.perm_ext_iff_of_nodup (List.nodup_range.filter _) tidy.distinct).mpr fun slot => ?_
    simp only [List.mem_filter, List.mem_range, decide_eq_true_eq, and_iff_right_iff_imp]
    exact tidy.inside slot
  have split := (List.range arena.slots.size).length_eq_countP_add_countP (· ∈ arena.free)
  rw [List.length_range, List.countP_eq_length_filter, freed.length_eq] at split
  have rest : (List.range arena.slots.size).countP (fun slot => decide (arena.Live ⟨slot⟩)) =
      (List.range arena.slots.size).countP fun slot => decide (slot ∉ arena.free) := by
    refine List.countP_congr fun slot member => ?_
    simp [Live, List.mem_range.mp member]
  rw [rest, live]
  simp only [decide_eq_true_eq] at split
  omega

/-- Where nothing but the root is alive without being captured, counting the captured scopes counts them all. -/
theorem Tidy.live_census (tidy : arena.Tidy) (lasting : ∀ id, arena.Live id → arena.Lasting id) :
    arena.live = 1 + arena.capturedInner := by
  rw [tidy.live_eq_countP, capturedInner]
  obtain ⟨rest, size⟩ : ∃ rest, arena.slots.size = rest + 1 := ⟨arena.slots.size - 1, by have := tidy.rooted.1; omega⟩
  rw [size, List.range_succ_eq_map, List.countP_cons, List.countP_cons, List.countP_map, List.countP_map]
  have rooted : arena.Live ⟨0⟩ := tidy.rooted
  simp only [rooted]
  have same : ∀ slot, (arena.Live ⟨slot + 1⟩ ↔ arena.Captured ⟨slot + 1⟩) := by
    intro slot
    constructor
    · intro live
      exact (lasting _ live).resolve_left (by simp [root])
    · exact tidy.captured_live
  simp [Function.comp_def, same, Nat.add_comm]

end Parlance.Arena
