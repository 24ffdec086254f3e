import Mathlib.Logic.Equiv.Basic
import Parlance.Proofs.Arena.Seats
import Parlance.Proofs.Renaming

/-! One arena mirrors another if the scopes at home in the first are alive in the second, under other handles, with the
same bindings and parents up to the renaming. The second may have any number of scopes besides. -/
namespace Parlance.Arena

structure Mirrors (move : Equiv.Perm ScopeId) (foreign : Set ScopeId) (first second : Arena) : Prop where
  rooted : move root = root
  tidy : second.Tidy
  live : ∀ id, first.Home foreign id → second.Live (move id)
  scope : ∀ id, first.Home foreign id → second.get? (move id) = (first.get? id).map (Scope.rename move)

/-- The second renaming is the first one on scopes that are at home. -/
def Agrees (arena : Arena) (foreign : Set ScopeId) (move next : Equiv.Perm ScopeId) : Prop :=
  ∀ id, arena.Home foreign id → next id = move id

/-- What a scope at home leads to is at home too, so renamings that agree there treat it alike. -/
theorem Closed.rename_scope {arena : Arena} {foreign : Set ScopeId} {move next : Equiv.Perm ScopeId}
    (closed : arena.Closed foreign) {id : ScopeId} {scope : Scope} (home : arena.Home foreign id)
    (found : arena.get? id = some scope) (agrees : arena.Agrees foreign move next) :
    scope.rename next = scope.rename move := by
  refine Scope.rename_congr ?_ ?_
  · intro parent link
    by_cases inner : id = root
    · rw [closed.top scope (inner ▸ found)] at link
      cases link
    · obtain ⟨parent', link', parentHome, _⟩ := closed.parent id scope home inner found
      rw [link] at link'
      cases link'
      exact agrees parent parentHome
  · intro entry member handle given
    exact agrees handle (closed.bound id scope entry home found member handle given).1

namespace Mirrors

variable {move : Equiv.Perm ScopeId} {foreign : Set ScopeId} {first second : Arena}

theorem refl (tidy : first.Tidy) : Mirrors (.refl _) foreign first first where
  rooted := rfl
  tidy := tidy
  live _ home := home.1
  scope id home := by
    obtain ⟨scope, found⟩ := home.1.found
    show first.get? id = _
    rw [found]
    exact congrArg some (Scope.rename_id scope).symm

/-! ### Looking up -/

theorem binding? (mirrors : Mirrors move foreign first second) (name : String) {id : ScopeId}
    (home : first.Home foreign id) :
    second.binding? name (move id) = (first.binding? name id).map (Value.rename move) := by
  unfold Arena.binding?
  rw [mirrors.scope id home]
  cases first.get? id with
  | none => rfl
  | some scope => exact Bindings.find?_rename scope.bindings name

theorem chain (mirrors : Mirrors move foreign first second) (closed : first.Closed foreign) {id : ScopeId}
    {path : List ScopeId} (chain : first.Chain id path) (home : first.Home foreign id) :
    second.Chain (move id) (path.map move) := by
  induction chain with
  | @root scope found top =>
    have here := mirrors.scope Arena.root home
    rw [found, mirrors.rooted] at here
    rw [List.map_singleton, mirrors.rooted]
    exact .root here (by simp [Scope.rename, top])
  | @inner id parent scope path found link outer ih =>
    have here := mirrors.scope id home
    rw [found] at here
    have inner : id ≠ Arena.root := by
      rintro rfl
      rw [closed.top scope found] at link
      cases link
    obtain ⟨parent', link', parentHome, _⟩ := closed.parent id scope home inner found
    rw [link] at link'
    cases link'
    exact .inner here (by simp [Scope.rename, link]) (ih parentHome)

theorem lookup (mirrors : Mirrors move foreign first second) (closed : first.Closed foreign) {id : ScopeId}
    (home : first.Home foreign id) (name : String) :
    second.lookup (move id) name = (first.lookup id name).map (Value.rename move) := by
  obtain ⟨path, chain⟩ := closed.chain id home
  rw [lookup_chain chain, lookup_chain (mirrors.chain closed chain home), List.findSome?_map]
  have inside := fun other member => (closed.chain_home chain home other member).1
  clear chain
  induction path with
  | nil => rfl
  | cons head rest ih =>
    obtain ⟨here, further⟩ := List.forall_mem_cons.mp inside
    simp only [List.findSome?_cons, Function.comp_apply, mirrors.binding? name here]
    cases first.binding? name head with
    | none => exact ih further
    | some value => rfl

/-! ### Defining and capturing -/

/-- The same change to a scope on either side. -/
theorem amend (mirrors : Mirrors move foreign first second) {id : ScopeId} {left right : Arena} (tidy : right.Tidy)
    (before : ∀ other, left.Live other ↔ first.Live other) (after : ∀ other, right.Live other ↔ second.Live other)
    {change changed : Scope → Scope} (same : ∀ scope, changed (scope.rename move) = (change scope).rename move)
    (leftScope : ∀ other, left.get? other = if id = other then (first.get? other).map change else first.get? other)
    (rightScope : ∀ other, right.get? other =
      if move id = other then (second.get? other).map changed else second.get? other) :
    Mirrors move foreign left right where
  rooted := mirrors.rooted
  tidy := tidy
  live other home := (after _).mpr (mirrors.live other ⟨(before other).mp home.1, home.2⟩)
  scope other home := by
    rw [leftScope, rightScope, mirrors.scope other ⟨(before other).mp home.1, home.2⟩]
    by_cases here : id = other
    · rw [if_pos here, if_pos (congrArg move here)]
      cases first.get? other with
      | none => rfl
      | some scope => exact congrArg some (same scope)
    · rw [if_neg here, if_neg fun equal => here (move.injective equal)]

theorem define (mirrors : Mirrors move foreign first second) {id : ScopeId} (home : first.Home foreign id)
    (name : String) (value : Value) :
    Mirrors move foreign (first.define id name value) (second.define (move id) name (value.rename move)) := by
  refine mirrors.amend (mirrors.tidy.define (mirrors.live id home) name _) (fun other => live_define_iff ..)
    (fun other => live_define_iff ..) ?_ (fun other => get?_define ..) (fun other => get?_define ..)
  intro scope
  simp only [Scope.rename, Bindings.insert_rename]

theorem capture (mirrors : Mirrors move foreign first second) {id : ScopeId} (home : first.Home foreign id) :
    Mirrors move foreign (first.capture id) (second.capture (move id)) := by
  refine mirrors.amend (mirrors.tidy.capture (mirrors.live id home)) (fun other => live_capture_iff ..)
    (fun other => live_capture_iff ..) ?_ (fun other => get?_capture ..) (fun other => get?_capture ..)
  exact fun scope => rfl

theorem defineAll (mirrors : Mirrors move foreign first second) {id : ScopeId} (home : first.Home foreign id)
    (params : List String) (values : List Value) :
    Mirrors move foreign (first.defineAll id (params.zip values))
      (second.defineAll (move id) (params.zip (values.map (Value.rename move)))) := by
  induction params generalizing values first second with
  | nil => exact mirrors
  | cons param params ih =>
    cases values with
    | nil => exact mirrors
    | cons value values =>
      exact ih (mirrors.define home param value) ⟨(live_define_iff ..).mpr home.1, home.2⟩ values

/-! ### Opening and closing -/

/-- The renaming that also sends the next scope of the first arena to that of the second. -/
def extend (move : Equiv.Perm ScopeId) (first second : Arena) : Equiv.Perm ScopeId :=
  move.trans (Equiv.swap (move first.vacant) second.vacant)

theorem extend_vacant (move : Equiv.Perm ScopeId) (first second : Arena) :
    extend move first second first.vacant = second.vacant := by
  simp [extend]

theorem extend_agrees (mirrors : Mirrors move foreign first second) :
    first.Agrees foreign move (extend move first second) := by
  intro id home
  have older : move id ≠ move first.vacant :=
    fun same => first.vacant_not_live (move.injective same ▸ home.1)
  have apart : move id ≠ second.vacant := fun same => second.vacant_not_live (same ▸ mirrors.live id home)
  simp [extend, Equiv.swap_apply_of_ne_of_ne older apart]

theorem child (mirrors : Mirrors move foreign first second) (tidy : first.Tidy) (closed : first.Closed foreign)
    {parent : ScopeId} (home : first.Home foreign parent) :
    Mirrors (extend move first second) foreign (first.child parent).2 (second.child (move parent)).2 := by
  have agrees := mirrors.extend_agrees
  refine ⟨?_, mirrors.tidy.child _, ?_, ?_⟩
  · rw [agrees root (closed.root_home tidy), mirrors.rooted]
  · intro id alive
    rw [live_child_iff mirrors.tidy]
    rcases (live_child_iff tidy parent id).mp alive.1 with rfl | older
    · exact Or.inl (extend_vacant move first second)
    · rw [agrees id ⟨older, alive.2⟩]
      exact Or.inr (mirrors.live id ⟨older, alive.2⟩)
  · intro id alive
    rw [get?_child tidy, get?_child mirrors.tidy]
    rcases (live_child_iff tidy parent id).mp alive.1 with rfl | older
    · rw [if_pos rfl, if_pos (extend_vacant move first second).symm]
      simp [Scope.rename, Bindings.rename, agrees parent home]
    · have different : first.vacant ≠ id := fun same => first.vacant_not_live (same ▸ older)
      have apart : second.vacant ≠ move id :=
        fun same => second.vacant_not_live (same ▸ mirrors.live id ⟨older, alive.2⟩)
      obtain ⟨scope, found⟩ := older.found
      rw [agrees id ⟨older, alive.2⟩, if_neg different, if_neg apart, mirrors.scope id ⟨older, alive.2⟩, found]
      exact congrArg some (closed.rename_scope ⟨older, alive.2⟩ found agrees).symm

/-- A scope may end on the first side only. -/
theorem release (mirrors : Mirrors move foreign first second) {id : ScopeId} (home : first.Home foreign id) :
    Mirrors move foreign (first.release id) second := by
  by_cases lasting : first.Lasting id
  · rw [release_lasting lasting]
    exact mirrors
  · refine ⟨mirrors.rooted, mirrors.tidy, ?_, ?_⟩
    · exact fun other alive => mirrors.live other ⟨live_of_release alive.1, alive.2⟩
    · intro other alive
      have different := ((live_release_iff lasting other).mp alive.1).1
      rw [get?_release home.1 lasting, if_neg (Ne.symm different)]
      exact mirrors.scope other ⟨live_of_release alive.1, alive.2⟩

theorem lasting_iff (mirrors : Mirrors move foreign first second) {id : ScopeId} (home : first.Home foreign id) :
    second.Lasting (move id) ↔ first.Lasting id := by
  have same : move id = root ↔ id = root := by
    conv_lhs => rw [← mirrors.rooted]
    exact move.injective.eq_iff
  unfold Lasting Captured
  rw [same, mirrors.scope id home]
  cases first.get? id <;> simp [Scope.rename]

theorem release_both (mirrors : Mirrors move foreign first second) {id : ScopeId} (home : first.Home foreign id) :
    Mirrors move foreign (first.release id) (second.release (move id)) := by
  by_cases lasting : first.Lasting id
  · rw [release_lasting lasting, release_lasting ((mirrors.lasting_iff home).mpr lasting)]
    exact mirrors
  · have left := mirrors.release home
    have spares := spares_release (mirrors.live id home)
    refine ⟨left.rooted, left.tidy.release (mirrors.live id home), ?_, ?_⟩
    · intro other alive
      have different := ((live_release_iff lasting other).mp alive.1).1
      exact (spares _ (fun same => different (move.injective same)) (left.live other alive)).1
    · intro other alive
      have different := ((live_release_iff lasting other).mp alive.1).1
      rw [(spares _ (fun same => different (move.injective same)) (left.live other alive)).2]
      exact left.scope other alive

end Mirrors
end Parlance.Arena
