import Mathlib.Data.Set.Defs
import Parlance.Proofs.Arena.Chain

/-! What can be followed from a part of the arena stays in it. A set of foreign scopes is left out of account: they are
alive, but nothing at home leads to them. Without foreign scopes the statements are about all that is alive. -/
namespace Parlance

/-- The scope that a value leads to. -/
def Value.handle? : Value → Option ScopeId
  | .procedure (.closure c) => some c.scope
  | _ => none

theorem Bindings.mem_insert {bindings : Bindings} {name : String} {value : Value} {entry : String × Value}
    (member : entry ∈ bindings.insert name value) : entry = (name, value) ∨ entry ∈ bindings := by
  induction bindings with
  | nil => exact Or.inl (List.mem_singleton.mp member)
  | cons first rest ih =>
    obtain ⟨bound, old⟩ := first
    simp only [insert] at member
    split at member
    · rcases List.mem_cons.mp member with here | there
      · exact Or.inl here
      · exact Or.inr (List.mem_cons_of_mem _ there)
    · rcases List.mem_cons.mp member with here | there
      · exact Or.inr (here ▸ List.mem_cons_self)
      · exact (ih there).imp_right (List.mem_cons_of_mem _)

theorem Bindings.mem_of_find? {bindings : Bindings} {name : String} {value : Value}
    (found : bindings.find? name = some value) : (name, value) ∈ bindings := by
  induction bindings with
  | nil => simp [find?] at found
  | cons first rest ih =>
    obtain ⟨bound, old⟩ := first
    simp only [find?] at found
    split at found
    · rename_i same
      simp only [Option.some.injEq] at found
      rw [same, found]
      exact List.mem_cons_self
    · exact List.mem_cons_of_mem _ (ih found)

namespace Arena

def Home (arena : Arena) (foreign : Set ScopeId) (id : ScopeId) : Prop :=
  arena.Live id ∧ id ∉ foreign

/-- Where the value leads is at home and lasts. -/
def Safe (arena : Arena) (foreign : Set ScopeId) (value : Value) : Prop :=
  ∀ id, value.handle? = some id → arena.Home foreign id ∧ arena.Lasting id

structure Closed (arena : Arena) (foreign : Set ScopeId) : Prop where
  rootHome : root ∉ foreign
  kept : ∀ id ∈ foreign, arena.Live id
  top : ∀ scope, arena.get? root = some scope → scope.parent = none
  parent : ∀ id scope, arena.Home foreign id → id ≠ root → arena.get? id = some scope →
    ∃ parent, scope.parent = some parent ∧ arena.Home foreign parent ∧ arena.Lasting parent
  chain : ∀ id, arena.Home foreign id → ∃ path, arena.Chain id path
  bound : ∀ id scope entry, arena.Home foreign id → arena.get? id = some scope → entry ∈ scope.bindings →
    arena.Safe foreign entry.2

/-- Every scope that a value may lead to is still one afterwards. -/
def Keeps (foreign : Set ScopeId) (arena next : Arena) : Prop :=
  ∀ id, arena.Home foreign id → arena.Lasting id → next.Home foreign id ∧ next.Lasting id

variable {arena : Arena} {foreign : Set ScopeId}

theorem Safe.keep {next : Arena} {value : Value} (safe : arena.Safe foreign value)
    (keeps : Keeps foreign arena next) : next.Safe foreign value := by
  intro id handle
  obtain ⟨home, lasting⟩ := safe id handle
  exact keeps id home lasting

theorem safe_of_handle? {value : Value} (none : value.handle? = none) : arena.Safe foreign value := by
  intro id handle
  rw [none] at handle
  cases handle

theorem Keeps.trans {middle next : Arena} (first : Keeps foreign arena middle)
    (second : Keeps foreign middle next) : Keeps foreign arena next := by
  intro id home lasting
  obtain ⟨home', lasting'⟩ := first id home lasting
  exact second id home' lasting'

namespace Closed

theorem root_home (tidy : arena.Tidy) (closed : arena.Closed foreign) : arena.Home foreign root :=
  ⟨tidy.rooted, closed.rootHome⟩

/-- A new scope is at home, since foreign scopes are alive already. -/
theorem vacant_native (closed : arena.Closed foreign) : arena.vacant ∉ foreign :=
  fun outside => arena.vacant_not_live (closed.kept _ outside)

theorem child_home (tidy : arena.Tidy) (closed : arena.Closed foreign) (parent : ScopeId) :
    (arena.child parent).2.Home foreign arena.vacant :=
  ⟨(live_child_iff tidy parent _).mpr (Or.inl rfl), closed.vacant_native⟩

/-- On the way outward everything is at home, and everything after the first step lasts. -/
theorem chain_home (closed : arena.Closed foreign) {id : ScopeId} {path : List ScopeId}
    (chain : arena.Chain id path) (home : arena.Home foreign id) :
    ∀ other ∈ path, arena.Home foreign other ∧ (other = id ∨ arena.Lasting other) := by
  induction chain with
  | root found top =>
    intro other member
    rw [List.mem_singleton.mp member]
    exact ⟨home, Or.inl rfl⟩
  | @inner id parent scope path found link outer ih =>
    intro other member
    rcases List.mem_cons.mp member with rfl | further
    · exact ⟨home, Or.inl rfl⟩
    · have notRoot : id ≠ Arena.root := by
        rintro rfl
        rw [closed.top scope found] at link
        cases link
      obtain ⟨parent', link', parentHome, parentLasting⟩ := closed.parent id scope home notRoot found
      rw [link] at link'
      cases link'
      obtain ⟨otherHome, same | lasting⟩ := ih parentHome other further
      · exact ⟨otherHome, Or.inr (same ▸ parentLasting)⟩
      · exact ⟨otherHome, Or.inr lasting⟩

/-- A name's value is bound in some scope at home. -/
theorem lookup_bound (closed : arena.Closed foreign) {id : ScopeId} {name : String}
    {value : Value} (home : arena.Home foreign id) (found : arena.lookup id name = some value) :
    ∃ holder scope, arena.Home foreign holder ∧ arena.get? holder = some scope ∧
      (name, value) ∈ scope.bindings := by
  obtain ⟨path, chain⟩ := closed.chain id home
  rw [lookup_chain chain] at found
  obtain ⟨holder, onPath, bound⟩ := List.exists_of_findSome?_eq_some found
  obtain ⟨scope, here, inside⟩ := Option.bind_eq_some_iff.mp bound
  exact ⟨holder, scope, (closed.chain_home chain home holder onPath).1, here, Bindings.mem_of_find? inside⟩

theorem lookup_safe (closed : arena.Closed foreign) {id : ScopeId} {name : String}
    {value : Value} (home : arena.Home foreign id) (found : arena.lookup id name = some value) :
    arena.Safe foreign value := by
  obtain ⟨holder, scope, holderHome, here, member⟩ := closed.lookup_bound home found
  exact closed.bound holder scope (name, value) holderHome here member

end Closed

/-! ### What each operation keeps -/

theorem keeps_define (id : ScopeId) (name : String) (value : Value) :
    Keeps foreign arena (arena.define id name value) := by
  intro other home lasting
  exact ⟨⟨(live_define_iff ..).mpr home.1, home.2⟩, lasting.imp_right (captured_define_iff ..).mpr⟩

theorem keeps_defineAll (id : ScopeId) (bindings : List (String × Value)) :
    Keeps foreign arena (arena.defineAll id bindings) := by
  induction bindings generalizing arena with
  | nil => exact fun other home lasting => ⟨home, lasting⟩
  | cons entry rest ih => exact (keeps_define id entry.1 entry.2).trans ih

theorem keeps_capture (id : ScopeId) : Keeps foreign arena (arena.capture id) := by
  intro other home lasting
  exact ⟨⟨(live_capture_iff ..).mpr home.1, home.2⟩, lasting.imp_right (captured_capture id)⟩

theorem keeps_child (tidy : arena.Tidy) (parent : ScopeId) : Keeps foreign arena (arena.child parent).2 := by
  intro other home lasting
  refine ⟨⟨(live_child_iff tidy parent other).mpr (Or.inr home.1), home.2⟩, lasting.imp_right ?_⟩
  rintro ⟨scope, found, flag⟩
  refine ⟨scope, ?_, flag⟩
  have different : arena.vacant ≠ other := fun same => arena.vacant_not_live (same ▸ home.1)
  rw [get?_child tidy, if_neg different, found]

theorem keeps_release {id : ScopeId} (live : arena.Live id) : Keeps foreign arena (arena.release id) := by
  by_cases ends : arena.Lasting id
  · rw [release_lasting ends]
    exact fun other home lasting => ⟨home, lasting⟩
  · intro other home lasting
    have different : other ≠ id := fun same => ends (same ▸ lasting)
    refine ⟨⟨(live_release_iff ends other).mpr ⟨different, home.1⟩, home.2⟩, lasting.imp_right ?_⟩
    rintro ⟨scope, found, flag⟩
    refine ⟨scope, ?_, flag⟩
    rw [get?_release live ends, if_neg (Ne.symm different), found]

namespace Closed

/-- A change that leaves lifetimes and parents alone and binds nothing unsafe. -/
theorem amend {next : Arena} (closed : arena.Closed foreign) (live : ∀ id, next.Live id ↔ arena.Live id)
    (keeps : Keeps foreign arena next)
    (parents : ∀ id, (next.get? id).map Scope.parent = (arena.get? id).map Scope.parent)
    (entries : ∀ id scope entry, arena.Home foreign id → next.get? id = some scope → entry ∈ scope.bindings →
      arena.Safe foreign entry.2) : next.Closed foreign := by
  have back : ∀ id, next.Home foreign id → arena.Home foreign id := fun id home => ⟨(live id).mp home.1, home.2⟩
  have before : ∀ id scope, next.get? id = some scope → ∃ old, arena.get? id = some old ∧ old.parent = scope.parent := by
    intro id scope found
    have same := parents id
    rw [found] at same
    exact Option.map_eq_some_iff.mp same.symm
  refine ⟨closed.rootHome, ?_, ?_, ?_, ?_, ?_⟩
  · intro id outside
    exact (live id).mpr (closed.kept id outside)
  · intro scope found
    obtain ⟨old, here, same⟩ := before root scope found
    rw [← same]
    exact closed.top old here
  · intro id scope home notRoot found
    obtain ⟨old, here, same⟩ := before id scope found
    obtain ⟨parent, link, parentHome, lasting⟩ := closed.parent id old (back id home) notRoot here
    exact ⟨parent, same.symm.trans link, keeps parent parentHome lasting⟩
  · intro id home
    obtain ⟨path, chain⟩ := closed.chain id (back id home)
    exact ⟨path, chain.transfer fun passed _ => parents passed⟩
  · intro id scope entry home found member
    exact (entries id scope entry (back id home) found member).keep keeps

theorem define (closed : arena.Closed foreign) (id : ScopeId) (name : String) {value : Value}
    (safe : arena.Safe foreign value) : (arena.define id name value).Closed foreign := by
  refine closed.amend (fun other => live_define_iff arena id other name value) (keeps_define id name value) ?_ ?_
  · intro other
    rw [get?_define]
    split
    · cases arena.get? other <;> rfl
    · rfl
  · intro other scope entry home found member
    rw [get?_define] at found
    split at found
    · obtain ⟨old, here, rfl⟩ := Option.map_eq_some_iff.mp found
      rcases Bindings.mem_insert member with rfl | older
      · exact safe
      · exact closed.bound other old entry home here older
    · exact closed.bound other scope entry home found member

theorem defineAll (closed : arena.Closed foreign) (id : ScopeId) (bindings : List (String × Value))
    (safe : ∀ entry ∈ bindings, arena.Safe foreign entry.2) : (arena.defineAll id bindings).Closed foreign := by
  induction bindings generalizing arena with
  | nil => exact closed
  | cons entry rest ih =>
    refine ih (closed.define id entry.1 (safe entry List.mem_cons_self)) ?_
    intro other later
    exact (safe other (List.mem_cons_of_mem _ later)).keep (keeps_define id entry.1 entry.2)

theorem capture (closed : arena.Closed foreign) (id : ScopeId) : (arena.capture id).Closed foreign := by
  refine closed.amend (fun other => live_capture_iff arena id other) (keeps_capture id) ?_ ?_
  · intro other
    rw [get?_capture]
    split
    · cases arena.get? other <;> rfl
    · rfl
  · intro other scope entry home found member
    rw [get?_capture] at found
    split at found
    · obtain ⟨old, here, rfl⟩ := Option.map_eq_some_iff.mp found
      exact closed.bound other old entry home here member
    · exact closed.bound other scope entry home found member

theorem child (tidy : arena.Tidy) (closed : arena.Closed foreign) {parent : ScopeId}
    (home : arena.Home foreign parent) (lasting : arena.Lasting parent) :
    (arena.child parent).2.Closed foreign := by
  have keeps : Keeps foreign arena (arena.child parent).2 := keeps_child tidy parent
  have old : ∀ other, arena.Live other → (arena.child parent).2.get? other = arena.get? other := by
    intro other live
    have different : arena.vacant ≠ other := fun same => arena.vacant_not_live (same ▸ live)
    rw [get?_child tidy, if_neg different]
  have outward : ∀ other path, arena.Home foreign other → arena.Chain other path →
      (arena.child parent).2.Chain other path := by
    intro other path otherHome chain
    refine chain.transfer ?_
    intro passed onPath
    rw [old passed (closed.chain_home chain otherHome passed onPath).1.1]
  have fresh : ∀ scope, (arena.child parent).2.get? arena.vacant = some scope →
      scope = ⟨[], some parent, false⟩ := by
    intro scope found
    rw [get?_child tidy, if_pos rfl] at found
    exact (Option.some.inj found).symm
  refine ⟨closed.rootHome, ?_, ?_, ?_, ?_, ?_⟩
  · intro other outside
    exact (live_child_iff tidy parent other).mpr (Or.inr (closed.kept other outside))
  · intro scope found
    rw [old root tidy.rooted] at found
    exact closed.top scope found
  · intro other scope otherHome notRoot found
    rcases (live_child_iff tidy parent other).mp otherHome.1 with rfl | live
    · rw [fresh scope found]
      exact ⟨parent, rfl, keeps parent home lasting⟩
    · rw [old other live] at found
      obtain ⟨outer, link, outerHome, outerLasting⟩ := closed.parent other scope ⟨live, otherHome.2⟩ notRoot found
      exact ⟨outer, link, keeps outer outerHome outerLasting⟩
  · intro other otherHome
    rcases (live_child_iff tidy parent other).mp otherHome.1 with rfl | live
    · obtain ⟨path, chain⟩ := closed.chain parent home
      have here : (arena.child parent).2.get? arena.vacant = some ⟨[], some parent, false⟩ := by
        rw [get?_child tidy, if_pos rfl]
      exact ⟨arena.vacant :: path, .inner here rfl (outward parent path home chain)⟩
    · obtain ⟨path, chain⟩ := closed.chain other ⟨live, otherHome.2⟩
      exact ⟨path, outward other path ⟨live, otherHome.2⟩ chain⟩
  · intro other scope entry otherHome found member
    rcases (live_child_iff tidy parent other).mp otherHome.1 with rfl | live
    · rw [fresh scope found] at member
      cases member
    · rw [old other live] at found
      exact (closed.bound other scope entry ⟨live, otherHome.2⟩ found member).keep keeps

/-- Nothing led to a scope that did not last, so nothing is lost with it. -/
theorem release (closed : arena.Closed foreign) {id : ScopeId}
    (home : arena.Home foreign id) : (arena.release id).Closed foreign := by
  by_cases ends : arena.Lasting id
  · rw [release_lasting ends]
    exact closed
  have keeps : Keeps foreign arena (arena.release id) := keeps_release home.1
  have back : ∀ other, (arena.release id).Home foreign other → other ≠ id ∧ arena.Home foreign other := by
    intro other otherHome
    obtain ⟨different, live⟩ := (live_release_iff ends other).mp otherHome.1
    exact ⟨different, live, otherHome.2⟩
  have old : ∀ other, other ≠ id → (arena.release id).get? other = arena.get? other := by
    intro other different
    rw [get?_release home.1 ends, if_neg (Ne.symm different)]
  have rootStays : root ≠ id := fun same => ends (Or.inl same.symm)
  refine ⟨closed.rootHome, ?_, ?_, ?_, ?_, ?_⟩
  · intro other outside
    have different : other ≠ id := fun same => home.2 (same ▸ outside)
    exact (live_release_iff ends other).mpr ⟨different, closed.kept other outside⟩
  · intro scope found
    rw [old root rootStays] at found
    exact closed.top scope found
  · intro other scope otherHome notRoot found
    obtain ⟨different, before⟩ := back other otherHome
    rw [old other different] at found
    obtain ⟨parent, link, parentHome, lasting⟩ := closed.parent other scope before notRoot found
    exact ⟨parent, link, keeps parent parentHome lasting⟩
  · intro other otherHome
    obtain ⟨different, before⟩ := back other otherHome
    obtain ⟨path, chain⟩ := closed.chain other before
    refine ⟨path, chain.transfer ?_⟩
    intro passed onPath
    have passedStays : passed ≠ id := by
      rcases (closed.chain_home chain before passed onPath).2 with rfl | lasting
      · exact different
      · exact fun same => ends (same ▸ lasting)
    rw [old passed passedStays]
  · intro other scope entry otherHome found member
    obtain ⟨different, before⟩ := back other otherHome
    rw [old other different] at found
    exact (closed.bound other scope entry before found member).keep keeps

end Closed
end Arena
end Parlance
