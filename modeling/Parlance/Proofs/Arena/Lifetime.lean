import Parlance.Arena

/-! Lifetimes of scopes. A slot is live unless it waits in the free list; the root and the captured scopes last. What
each operation of the arena does to the slots, to the live scopes and to the free list is said here once. -/
namespace Parlance

theorem ScopeId.index_ne {id other : ScopeId} (different : id ≠ other) : id.index ≠ other.index := by
  intro equal
  cases id
  cases other
  exact different (congrArg ScopeId.mk equal)

namespace Arena

def Live (arena : Arena) (id : ScopeId) : Prop :=
  id.index < arena.slots.size ∧ id.index ∉ arena.free

instance (arena : Arena) (id : ScopeId) : Decidable (arena.Live id) :=
  inferInstanceAs (Decidable (_ ∧ _))

def Captured (arena : Arena) (id : ScopeId) : Prop :=
  ∃ scope, arena.get? id = some scope ∧ scope.captured = true

/-- No invocation's end takes the scope away. -/
def Lasting (arena : Arena) (id : ScopeId) : Prop :=
  id = root ∨ arena.Captured id

/-- The free list names each released slot once, never the root's, and released slots hold nothing. -/
structure Tidy (arena : Arena) : Prop where
  rooted : arena.Live root
  distinct : arena.free.Nodup
  inside : ∀ slot ∈ arena.free, slot < arena.slots.size
  emptied : ∀ slot ∈ arena.free, arena.slots[slot]? = some Scope.empty

theorem Live.found {arena : Arena} {id : ScopeId} (live : arena.Live id) :
    ∃ scope, arena.get? id = some scope := by
  have inside : id.index < arena.slots.size := live.1
  exact ⟨arena.slots[id.index], by simp [get?, inside]⟩

theorem Tidy.free_uncaptured {arena : Arena} (tidy : arena.Tidy) (slot : Nat) (free : slot ∈ arena.free) :
    ¬ arena.Captured ⟨slot⟩ := by
  rintro ⟨scope, found, captured⟩
  have empty : scope = Scope.empty := by
    simpa [get?, tidy.emptied slot free] using found.symm
  simp [empty, Scope.empty] at captured

theorem Tidy.captured_live {arena : Arena} (tidy : arena.Tidy) {id : ScopeId} (captured : arena.Captured id) :
    arena.Live id := by
  obtain ⟨scope, found, flag⟩ := captured
  exact ⟨(Array.getElem?_eq_some_iff.mp found).1, fun free => tidy.free_uncaptured id.index free ⟨scope, found, flag⟩⟩

/-- A released scope binds nothing and leads nowhere, so no name is found from it. -/
theorem Tidy.lookup_live {arena : Arena} (tidy : arena.Tidy) {id : ScopeId} {name : String} {value : Value}
    (found : arena.lookup id name = some value) : arena.Live id := by
  unfold lookup at found
  cases size : arena.slots.size with
  | zero => simp [size, lookupWithin] at found
  | succ depth =>
    rw [size, lookupWithin] at found
    cases here : arena.get? id with
    | none => simp [here] at found
    | some scope =>
      refine ⟨(Array.getElem?_eq_some_iff.mp here).1, ?_⟩
      intro free
      have empty : scope = Scope.empty := Option.some.inj (here.symm.trans (tidy.emptied id.index free))
      simp [here, empty, Scope.empty, Bindings.find?] at found

/-! ### Defining and capturing -/

@[simp] theorem live_define_iff (arena : Arena) (id other : ScopeId) (name : String) (value : Value) :
    (arena.define id name value).Live other ↔ arena.Live other := by
  simp [Live, define]

@[simp] theorem live_capture_iff (arena : Arena) (id other : ScopeId) :
    (arena.capture id).Live other ↔ arena.Live other := by
  simp [Live, capture]

theorem captured_define_iff (arena : Arena) (id other : ScopeId) (name : String) (value : Value) :
    (arena.define id name value).Captured other ↔ arena.Captured other := by
  unfold Captured
  rw [get?_define]
  split
  · cases arena.get? other <;> simp
  · rfl

theorem captured_capture {arena : Arena} (id : ScopeId) {other : ScopeId} (captured : arena.Captured other) :
    (arena.capture id).Captured other := by
  obtain ⟨scope, found, flag⟩ := captured
  unfold Captured
  rw [get?_capture]
  split
  · exact ⟨_, by rw [found]; rfl, rfl⟩
  · exact ⟨scope, found, flag⟩

theorem captured_capture_self {arena : Arena} {id : ScopeId} (live : arena.Live id) :
    (arena.capture id).Captured id := by
  obtain ⟨scope, found⟩ := live.found
  exact ⟨{ scope with captured := true }, by simp [get?_capture, found], rfl⟩

theorem Tidy.define {arena : Arena} (tidy : arena.Tidy) {id : ScopeId} (live : arena.Live id) (name : String)
    (value : Value) : (arena.define id name value).Tidy where
  rooted := (live_define_iff ..).mpr tidy.rooted
  distinct := tidy.distinct
  inside slot free := by simpa [Arena.define] using tidy.inside slot free
  emptied slot free := by
    have other : id.index ≠ slot := fun same => live.2 (same ▸ free)
    simpa [Arena.define, Array.getElem?_modify, other] using tidy.emptied slot free

theorem Tidy.capture {arena : Arena} (tidy : arena.Tidy) {id : ScopeId} (live : arena.Live id) :
    (arena.capture id).Tidy where
  rooted := (live_capture_iff ..).mpr tidy.rooted
  distinct := tidy.distinct
  inside slot free := by simpa [Arena.capture] using tidy.inside slot free
  emptied slot free := by
    have other : id.index ≠ slot := fun same => live.2 (same ▸ free)
    simpa [Arena.capture, Array.getElem?_modify, other] using tidy.emptied slot free

/-- Binds name after name in one scope. -/
def defineAll (arena : Arena) (id : ScopeId) (bindings : List (String × Value)) : Arena :=
  bindings.foldl (fun arena entry => arena.define id entry.1 entry.2) arena

theorem get?_defineAll (arena : Arena) (id other : ScopeId) (bindings : List (String × Value)) :
    (arena.defineAll id bindings).get? other =
      if id = other then
        (arena.get? other).map fun scope =>
          { scope with bindings := bindings.foldl (fun bound entry => bound.insert entry.1 entry.2) scope.bindings }
      else arena.get? other := by
  induction bindings generalizing arena with
  | nil =>
    show arena.get? other = _
    split
    · cases arena.get? other <;> rfl
    · rfl
  | cons entry rest ih =>
    refine (ih (arena.define id entry.1 entry.2)).trans ?_
    rw [get?_define]
    split
    · cases arena.get? other <;> rfl
    · rfl

@[simp] theorem live_defineAll_iff (arena : Arena) (id other : ScopeId) (bindings : List (String × Value)) :
    (arena.defineAll id bindings).Live other ↔ arena.Live other := by
  induction bindings generalizing arena with
  | nil => rfl
  | cons entry rest ih => exact (ih (arena.define id entry.1 entry.2)).trans (live_define_iff ..)

theorem Tidy.defineAll {arena : Arena} (tidy : arena.Tidy) {id : ScopeId} (live : arena.Live id)
    (bindings : List (String × Value)) : (arena.defineAll id bindings).Tidy := by
  induction bindings generalizing arena with
  | nil => exact tidy
  | cons entry rest ih => exact ih (tidy.define live entry.1 entry.2) ((live_define_iff ..).mpr live)

/-! ### Opening a scope -/

/-- The slot that the next scope will have. -/
def vacant (arena : Arena) : ScopeId :=
  ⟨arena.free.headD arena.slots.size⟩

theorem child_fst (arena : Arena) (parent : ScopeId) : (arena.child parent).1 = arena.vacant := by
  unfold child vacant
  cases arena.free <;> rfl

theorem vacant_not_live (arena : Arena) : ¬ arena.Live arena.vacant := by
  rintro ⟨inside, outside⟩
  unfold vacant at inside outside
  cases free : arena.free with
  | nil => simp [free] at inside
  | cons slot rest => simp [free] at outside

theorem get?_child {arena : Arena} (tidy : arena.Tidy) (parent other : ScopeId) :
    (arena.child parent).2.get? other =
      if arena.vacant = other then some ⟨[], some parent, false⟩ else arena.get? other := by
  obtain ⟨slots, free⟩ := arena
  obtain ⟨index⟩ := other
  cases free with
  | nil => simp [child, vacant, get?, Array.getElem?_push, eq_comm]
  | cons slot rest =>
    have inside : slot < slots.size := tidy.inside slot (by simp)
    by_cases same : slot = index
    · subst same
      simp [child, vacant, get?, inside]
    · simp [child, vacant, get?, same]

theorem live_child_iff {arena : Arena} (tidy : arena.Tidy) (parent other : ScopeId) :
    (arena.child parent).2.Live other ↔ other = arena.vacant ∨ arena.Live other := by
  obtain ⟨slots, free⟩ := arena
  obtain ⟨index⟩ := other
  cases free with
  | nil =>
    simp [child, vacant, Live]
    omega
  | cons slot rest =>
    have inside : slot < slots.size := tidy.inside slot (by simp)
    have once : slot ∉ rest := (List.nodup_cons.mp tidy.distinct).1
    simp only [child, vacant, Live, Array.size_setIfInBounds, List.headD_cons, ScopeId.mk.injEq, List.mem_cons, not_or]
    constructor
    · rintro ⟨bounded, absent⟩
      by_cases same : index = slot
      · exact Or.inl same
      · exact Or.inr ⟨bounded, same, absent⟩
    · rintro (same | ⟨bounded, _, absent⟩)
      · subst same
        exact ⟨inside, once⟩
      · exact ⟨bounded, absent⟩

theorem enter_live {arena : Arena} (tidy : arena.Tidy) (parent : ScopeId) (bindings : List (String × Value)) :
    ((arena.child parent).2.defineAll arena.vacant bindings).Live arena.vacant :=
  (live_defineAll_iff ..).mpr ((live_child_iff tidy parent _).mpr (Or.inl rfl))

theorem Tidy.child {arena : Arena} (tidy : arena.Tidy) (parent : ScopeId) : (arena.child parent).2.Tidy := by
  have rooted := (live_child_iff tidy parent root).mpr (Or.inr tidy.rooted)
  obtain ⟨slots, free⟩ := arena
  cases free with
  | nil => exact ⟨rooted, by simp [Arena.child], by simp [Arena.child], by simp [Arena.child]⟩
  | cons slot rest =>
    have once := List.nodup_cons.mp tidy.distinct
    refine ⟨rooted, once.2, ?_, ?_⟩
    · intro other free
      simpa [Arena.child] using tidy.inside other (List.mem_cons_of_mem _ free)
    · intro other free
      have different : slot ≠ other := fun same => once.1 (same ▸ free)
      simpa [Arena.child, different] using tidy.emptied other (List.mem_cons_of_mem _ free)

/-! ### Releasing a scope -/

theorem isReleasable_iff (arena : Arena) (id : ScopeId) : arena.isReleasable id = true ↔ ¬ arena.Lasting id := by
  unfold isReleasable Lasting Captured
  cases found : arena.get? id <;> simp

theorem release_lasting {arena : Arena} {id : ScopeId} (lasting : arena.Lasting id) : arena.release id = arena := by
  unfold release
  rw [if_neg]
  intro releasable
  exact (isReleasable_iff arena id).mp releasable lasting

theorem get?_release {arena : Arena} {id : ScopeId} (live : arena.Live id) (ends : ¬ arena.Lasting id)
    (other : ScopeId) :
    (arena.release id).get? other = if id = other then some Scope.empty else arena.get? other := by
  unfold release
  rw [if_pos ((isReleasable_iff arena id).mpr ends)]
  by_cases same : id = other
  · subst same
    simp [get?, live.1]
  · simp [get?, same, ScopeId.index_ne same]

theorem live_release_iff {arena : Arena} {id : ScopeId} (ends : ¬ arena.Lasting id) (other : ScopeId) :
    (arena.release id).Live other ↔ other ≠ id ∧ arena.Live other := by
  unfold release
  rw [if_pos ((isReleasable_iff arena id).mpr ends)]
  have same : other.index = id.index ↔ other = id :=
    ⟨fun equal => by cases other; cases id; exact congrArg ScopeId.mk equal, fun equal => equal ▸ rfl⟩
  simp only [Live, Array.size_setIfInBounds, List.mem_cons, not_or, same, ne_eq]
  exact and_left_comm

theorem live_of_release {arena : Arena} {id other : ScopeId} (live : (arena.release id).Live other) :
    arena.Live other := by
  by_cases lasting : arena.Lasting id
  · rw [release_lasting lasting] at live
    exact live
  · exact ((live_release_iff lasting other).mp live).2

theorem Tidy.release {arena : Arena} (tidy : arena.Tidy) {id : ScopeId} (live : arena.Live id) :
    (arena.release id).Tidy := by
  by_cases lasting : arena.Lasting id
  · rw [release_lasting lasting]
    exact tidy
  · have different : root ≠ id := fun same => lasting (Or.inl same.symm)
    have rooted := (live_release_iff lasting root).mpr ⟨different, tidy.rooted⟩
    have slots : arena.release id = ⟨arena.slots.setIfInBounds id.index Scope.empty, id.index :: arena.free⟩ :=
      if_pos ((isReleasable_iff arena id).mpr lasting)
    refine ⟨rooted, ?_, ?_, ?_⟩
    · rw [slots]
      exact List.nodup_cons.mpr ⟨live.2, tidy.distinct⟩
    · rw [slots]
      intro slot free
      rcases List.mem_cons.mp free with rfl | free
      · simpa using live.1
      · simpa using tidy.inside slot free
    · rw [slots]
      intro slot free
      by_cases same : id.index = slot
      · subst same
        simp [live.1]
      · have older : slot ∈ arena.free := by
          rcases List.mem_cons.mp free with equal | older
          · exact absurd equal.symm same
          · exact older
        simpa [same] using tidy.emptied slot older

end Arena
end Parlance
