import Parlance.Proofs.Dialogue
import Parlance.Proofs.Moment.Sound

/-! The arena of scopes at every moment of a session's life, whatever the host asks for: no handle that is ever followed
dangles or has been given to another scope. -/
namespace Parlance

open Arena

/-- All scopes in which something is being, or waits to be, evaluated. -/
def Phase.scopes : Phase → List ScopeId
  | .idle _ => []
  | .busy config =>
    config.control.scope?.toList ++ config.stack.flatMap fun frame => frame.scope?.toList ++ frame.own?.toList

namespace Moment

structure Guarded (moment : Moment) : Prop where
  freeOnce : moment.arena.free.Nodup
  freeInside : ∀ slot ∈ moment.arena.free,
    slot < moment.arena.slots.size ∧ slot ≠ 0 ∧ ¬ moment.arena.Captured ⟨slot⟩
  freeEmpty : ∀ slot ∈ moment.arena.free, moment.arena.slots[slot]? = some Scope.empty
  parent : ∀ id scope, moment.arena.Live id → id ≠ root → moment.arena.get? id = some scope →
    ∃ parent, scope.parent = some parent ∧ moment.arena.Live parent ∧ (parent = root ∨ moment.arena.Captured parent)
  grounded : ∀ id, moment.arena.Live id → ∃ path, moment.arena.Chain id path
  /-- No search for a name is cut short by its bound. -/
  lookup : ∀ id name depth, moment.arena.Live id → moment.arena.slots.size ≤ depth →
    moment.arena.lookupWithin name depth id = moment.arena.lookup id name
  bound : ∀ id scope entry, moment.arena.Live id → moment.arena.get? id = some scope → entry ∈ scope.bindings →
    ∀ handle, entry.2.handle? = some handle →
      moment.arena.Live handle ∧ (handle = root ∨ moment.arena.Captured handle)
  held : ∀ value ∈ moment.held ++ moment.phase.values, ∀ handle, value.handle? = some handle →
    moment.arena.Live handle ∧ (handle = root ∨ moment.arena.Captured handle)
  used : ∀ id ∈ moment.phase.scopes, moment.arena.Live id
  /-- No two invocations at work have the same scope, and none works in the root. -/
  owned : (invocations moment.phase.stack).Nodup ∧
    ∀ id ∈ invocations moment.phase.stack, moment.arena.Live id ∧ id ≠ root

namespace Sound

variable {moment : Moment}

theorem used (sound : moment.Sound) : ∀ id ∈ moment.phase.scopes, moment.arena.Live id := by
  obtain ⟨held, phase⟩ := moment
  cases phase with
  | idle session => exact fun id member => absurd member List.not_mem_nil
  | busy config =>
    intro id member
    simp only [Phase.scopes, List.mem_append, List.mem_flatMap, Option.mem_toList] at member
    rcases member with here | ⟨frame, waiting, goesOn | own⟩
    · exact (sound.phase.control_home here).1
    · exact (sound.phase.frame_home waiting (Or.inl goesOn)).1
    · exact (sound.phase.frame_home waiting (Or.inr own)).1

theorem guarded (sound : moment.Sound) : moment.Guarded := by
  obtain ⟨owned, hosts⟩ := sound.hosts
  have home : ∀ id, moment.arena.Live id → moment.arena.Home ∅ id := fun id live => ⟨live, fun outside => outside⟩
  have shut : ∀ value, moment.arena.Safe ∅ value → ∀ handle, value.handle? = some handle →
      moment.arena.Live handle ∧ moment.arena.Lasting handle := by
    intro value safe handle given
    exact ⟨(safe handle given).1.1, (safe handle given).2⟩
  refine ⟨hosts.tidy.distinct, ?_, hosts.tidy.emptied, ?_, ?_, ?_, ?_, ?_, sound.used, ?_⟩
  · intro slot free
    refine ⟨hosts.tidy.inside slot free, ?_, hosts.tidy.free_uncaptured slot free⟩
    rintro rfl
    exact hosts.tidy.rooted.2 free
  · intro id scope live notRoot found
    obtain ⟨parent, link, parentHome, lasting⟩ := hosts.closed.parent id scope (home id live) notRoot found
    exact ⟨parent, link, parentHome.1, lasting⟩
  · exact fun id live => hosts.closed.chain id (home id live)
  · intro id name depth live enough
    obtain ⟨path, chain⟩ := hosts.closed.chain id (home id live)
    rw [lookup_chain chain, lookupWithin_chain chain name (Nat.le_trans chain.length_le enough)]
  · intro id scope entry live found member
    exact shut entry.2 (hosts.closed.bound id scope entry (home id live) found member)
  · intro value member
    rcases List.mem_append.mp member with kept | working
    · exact shut value (sound.held value kept)
    · obtain ⟨held, phase⟩ := moment
      cases phase with
      | idle session => cases working
      | busy config => exact shut value (sound.phase.safe value working)
  · obtain ⟨held, phase⟩ := moment
    cases phase with
    | idle session => exact ⟨List.nodup_nil, fun id member => absurd member List.not_mem_nil⟩
    | busy config => exact ⟨sound.phase.hosts.distinct, sound.phase.hosts.alive⟩

end Sound

/-- Whatever a host asks of a session, and wherever it looks on the way, the scopes are guarded; a scope that lasts is
never taken away or given to another invocation; and neither executing a source nor an interactive session leads out of
the moments described. -/
theorem scopes_never_dangle {moment : Moment} (reached : moment.Reachable fun _ => True) :
    moment.Guarded ∧
      (∀ next, Later (fun _ => True) moment next → next.Guarded ∧
        ∀ id, moment.arena.Live id → id = root ∨ moment.arena.Captured id →
          next.arena.Live id ∧ (id = root ∨ next.arena.Captured id)) ∧
      ∀ held session, moment = ⟨held, .idle session⟩ →
        (∀ fuel source result after, session.execute fuel source = some (result, after) →
          ∃ more, Reachable (fun _ => True) ⟨more, .idle after⟩) ∧
        ∀ fuel result after, Prompt.run fuel session = some (result, after) →
          ∃ more, Reachable (fun _ => True) ⟨more, .idle after⟩ := by
  refine ⟨reached.sound.guarded, ?_, ?_⟩
  · intro next path
    obtain ⟨sound, keeps⟩ := reached.sound.later path
    refine ⟨sound.guarded, ?_⟩
    intro id live lasting
    obtain ⟨home, lasting⟩ := keeps id ⟨live, fun outside => outside⟩ lasting
    exact ⟨home.1, lasting⟩
  · rintro held session rfl
    constructor
    · intro fuel source result after ran
      exact reached.execute (fun _ _ => trivial) ran
    · intro fuel result after talked
      exact reached.prompt (fun _ _ _ _ _ _ => trivial) talked

/-- A procedure that outlives the invocation that made it, called once: its scope #1 is captured and slot 2 is free. -/
theorem scopes_never_dangle_after_capture :
    ∃ moment, Reachable (fun _ => True) moment ∧ moment.arena.free = [2] ∧ moment.arena.Captured ⟨1⟩ ∧
      moment.Guarded := by
  have ran : ∃ outcome after, (Session.start (.ofInput []) .silent).run 60
      [.definition "make" ["x"] [.definition "get" ["y"] [.returns (.identifier "x" 3) 3] 0 2,
          .returns (.identifier "get" 4) 4] 0 1,
        .call (.call (.identifier "make" 5) [.literal (.boolean true) 5] 5) [.literal .nothing 5] 5] =
      some (outcome, after) ∧ after.arena.free = [2] ∧ after.arena.Captured ⟨1⟩ :=
    ⟨_, _, rfl, rfl, _, rfl, rfl⟩
  obtain ⟨outcome, after, ran, free, captured⟩ := ran
  have reached : Reachable (fun _ => True) ⟨_, .idle after⟩ := ⟨_, _, Session.run_later [] trivial ran⟩
  exact ⟨_, reached, free, captured, (scopes_never_dangle reached).1⟩

end Moment
end Parlance
