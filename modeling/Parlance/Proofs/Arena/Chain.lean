import Parlance.Proofs.Arena.Lifetime

/-! The way from a scope outward to the root. No scope occurs on it twice, so it is never longer than the arena is large,
and a name's value is the one that the first scope on the way gives it. -/
namespace Parlance.Arena

/-- The scopes from `id` to the root, both included. -/
inductive Chain (arena : Arena) : ScopeId → List ScopeId → Prop
  | root {scope : Scope} (found : arena.get? root = some scope) (top : scope.parent = none) :
      Chain arena root [root]
  | inner {id parent : ScopeId} {scope : Scope} {path : List ScopeId} (found : arena.get? id = some scope)
      (link : scope.parent = some parent) (outer : Chain arena parent path) : Chain arena id (id :: path)

namespace Chain

variable {arena : Arena} {id : ScopeId} {path : List ScopeId}

theorem found (chain : arena.Chain id path) : ∀ other ∈ path, ∃ scope, arena.get? other = some scope := by
  induction chain with
  | root found top =>
    intro other member
    rw [List.mem_singleton.mp member]
    exact ⟨_, found⟩
  | inner found link outer ih =>
    intro other member
    rcases List.mem_cons.mp member with rfl | further
    · exact ⟨_, found⟩
    · exact ih other further

theorem unique (chain : arena.Chain id path) {second : List ScopeId} (other : arena.Chain id second) :
    path = second := by
  induction chain generalizing second with
  | root found top =>
    cases other with
    | root _ _ => rfl
    | inner found' link _ =>
      rw [found] at found'
      cases found'
      rw [top] at link
      cases link
  | inner found link outer ih =>
    cases other with
    | root found' top =>
      rw [found] at found'
      cases found'
      rw [link] at top
      cases top
    | inner found' link' outer' =>
      rw [found] at found'
      cases found'
      rw [link] at link'
      cases link'
      rw [ih outer']

/-- From a scope on the way, the rest of the way is its own. -/
theorem from_member (chain : arena.Chain id path) :
    ∀ other ∈ path, ∃ rest, arena.Chain other rest ∧ rest.length ≤ path.length := by
  induction chain with
  | root found top =>
    intro other member
    rw [List.mem_singleton.mp member]
    exact ⟨_, .root found top, Nat.le_refl _⟩
  | inner found link outer ih =>
    intro other member
    rcases List.mem_cons.mp member with rfl | further
    · exact ⟨_, .inner found link outer, Nat.le_refl _⟩
    · obtain ⟨rest, chain, shorter⟩ := ih other further
      exact ⟨rest, chain, Nat.le_succ_of_le shorter⟩

theorem nodup (chain : arena.Chain id path) : path.Nodup := by
  induction chain with
  | root found top => exact List.pairwise_singleton _ _
  | @inner id parent scope path found link outer ih =>
    refine List.nodup_cons.mpr ⟨?_, ih⟩
    intro again
    -- Were `id` met again further out, its way would be longer than itself.
    obtain ⟨rest, chain, shorter⟩ := outer.from_member id again
    rw [← (Chain.inner found link outer).unique chain] at shorter
    exact Nat.not_succ_le_self _ shorter

theorem length_le (chain : arena.Chain id path) : path.length ≤ arena.slots.size := by
  have distinct : (path.map ScopeId.index).Nodup :=
    List.Pairwise.map ScopeId.index (fun _ _ different => ScopeId.index_ne different) chain.nodup
  have inside : path.map ScopeId.index ⊆ List.range arena.slots.size := by
    intro index member
    obtain ⟨other, onPath, rfl⟩ := List.mem_map.mp member
    obtain ⟨scope, found⟩ := chain.found other onPath
    exact List.mem_range.mpr (Array.getElem?_eq_some_iff.mp found).1
  simpa using distinct.length_le_of_subset inside

/-- The way stays the same in an arena that agrees on the scopes it passes, up to their bindings. -/
theorem transfer {next : Arena} (chain : arena.Chain id path)
    (same : ∀ other ∈ path, (next.get? other).map Scope.parent = (arena.get? other).map Scope.parent) :
    next.Chain id path := by
  induction chain with
  | root found top =>
    have kept := same Arena.root (by simp)
    rw [found] at kept
    obtain ⟨scope, found', parent⟩ := Option.map_eq_some_iff.mp kept
    exact .root found' (parent.trans top)
  | @inner id parent scope path found link outer ih =>
    have kept := same id (by simp)
    rw [found] at kept
    obtain ⟨scope', found', parent'⟩ := Option.map_eq_some_iff.mp kept
    exact .inner found' (parent'.trans link) (ih fun other member => same other (List.mem_cons_of_mem _ member))

end Chain

/-- What a single scope binds a name to. -/
def binding? (arena : Arena) (name : String) (id : ScopeId) : Option Value :=
  (arena.get? id).bind fun scope => scope.bindings.find? name

theorem lookupWithin_chain {arena : Arena} {id : ScopeId} {path : List ScopeId} (chain : arena.Chain id path)
    (name : String) {depth : Nat} (enough : path.length ≤ depth) :
    arena.lookupWithin name depth id = path.findSome? (arena.binding? name) := by
  induction chain generalizing depth with
  | root found top =>
    obtain ⟨depth, rfl⟩ : ∃ below, depth = below + 1 := ⟨depth - 1, by simp at enough; omega⟩
    simp only [lookupWithin, List.findSome?_cons, List.findSome?_nil, binding?, found, Option.bind_some, top]
    cases Bindings.find? _ name <;> rfl
  | @inner id parent scope path found link outer ih =>
    obtain ⟨depth, rfl⟩ : ∃ below, depth = below + 1 := ⟨depth - 1, by simp at enough; omega⟩
    have shorter : path.length ≤ depth := by simpa using enough
    simp only [lookupWithin, List.findSome?_cons, binding?, found, Option.bind_some, link]
    cases scope.bindings.find? name with
    | some value => rfl
    | none => exact ih shorter

/-- The bound on the number of scopes looked through never cuts a search short. -/
theorem lookup_chain {arena : Arena} {id : ScopeId} {path : List ScopeId} (chain : arena.Chain id path)
    (name : String) : arena.lookup id name = path.findSome? (arena.binding? name) :=
  lookupWithin_chain chain name chain.length_le

end Parlance.Arena
