import Parlance.Proofs.Arena.Census
import Parlance.Proofs.Arena.Chain
import Parlance.Proofs.Arena.Tree

/-! The arena is a scope tree to anyone who uses it with discipline. A client knows scopes by the handles it was given;
handles come again, identities do not. Every operation keeps the two in step, so all lookups agree, and the arena never has
more slots than there were scopes alive at one time. -/
namespace Parlance

open Arena

/-- An arena, and the handles it has given out, the last one first. -/
structure Client where
  arena : Arena
  handles : List ScopeId

namespace Client

def start : Client :=
  ⟨.start, [root]⟩

def handle? (client : Client) (id : Nat) : Option ScopeId :=
  numbered? client.handles id

/-- Acts on the scope that was opened after `id` others, if there is one. -/
def act (client : Client) (id : Nat) (action : Arena → ScopeId → Arena) : Client :=
  match client.handle? id with
  | some handle => ⟨action client.arena handle, client.handles⟩
  | none => client

def step (client : Client) : Operation → Client
  | .child parent =>
    match client.handle? parent with
    | some handle => ⟨(client.arena.child handle).2, (client.arena.child handle).1 :: client.handles⟩
    | none => client
  | .define scope name value => client.act scope fun arena handle => arena.define handle name value
  | .lookup .. => client
  | .capture scope => client.act scope capture
  | .release scope => client.act scope release

def answer? (client : Client) : Operation → Option (Option Value)
  | .lookup scope name => some ((client.handle? scope).bind fun handle => client.arena.lookup handle name)
  | .child _ | .define .. | .capture _ | .release _ => none

/-- What the lookups among the operations find. -/
def answers (client : Client) : List Operation → List (Option Value)
  | [] => []
  | operation :: rest => (client.answer? operation).toList ++ answers (client.step operation) rest

def run (client : Client) (operations : List Operation) : Client :=
  operations.foldl step client

/-- How many scopes are alive before the operations and after each of them. -/
def lives (client : Client) : List Operation → List Nat
  | [] => [client.arena.live]
  | operation :: rest => client.arena.live :: lives (client.step operation) rest

end Client

/-- How many scopes the operations open. -/
def Operation.created (operations : List Operation) : Nat :=
  operations.countP fun
    | .child _ => true
    | .define .. | .lookup .. | .capture _ | .release _ => false

/-- Every scope alive in the tree is alive in the arena, under a handle of its own, and has there the same bindings, the
same mark and the handle of the same parent. -/
structure ScopeTree.Shows (tree : ScopeTree) (client : Client) : Prop where
  tidy : client.arena.Tidy
  count : client.handles.length = tree.length
  rooted : client.handle? 0 = some root ∧ tree.isAlive 0 = true
  top : ∀ id branch, numbered? tree id = some branch → (branch.parent = none ↔ id = 0)
  older : ∀ id branch parent, numbered? tree id = some branch → branch.parent = some parent → parent < id
  parent : ∀ id branch parent, numbered? tree id = some branch → branch.alive = true → branch.parent = some parent →
    tree.isAlive parent = true
  scope : ∀ id branch handle, numbered? tree id = some branch → branch.alive = true → client.handle? id = some handle →
    client.arena.Live handle ∧
      client.arena.get? handle = some ⟨branch.bindings, branch.parent.bind client.handle?, branch.captured⟩
  distinct : ∀ id other handle, tree.isAlive id = true → tree.isAlive other = true → client.handle? id = some handle →
    client.handle? other = some handle → id = other

namespace ScopeTree

variable {tree : ScopeTree} {client : Client} {id other : Nat} {branch : Branch} {handle : ScopeId}

theorem isAlive_iff : tree.isAlive id = true ↔ ∃ branch, numbered? tree id = some branch ∧ branch.alive = true := by
  simp [isAlive, Option.any_eq_true]

theorem start_tidy : Arena.start.Tidy :=
  ⟨by decide, by decide, by decide, fun _ free => absurd free List.not_mem_nil⟩

theorem shows_start : start.Shows .start := by
  have only {id : Nat} {branch : Branch} (found : numbered? start id = some branch) :
      id = 0 ∧ branch = ⟨[], none, false, true⟩ := by
    rw [start, numbered?] at found
    split at found
    · rename_i same
      exact ⟨same, (Option.some.inj found).symm⟩
    · cases found
  refine ⟨start_tidy, rfl, ⟨rfl, rfl⟩, ?_, ?_, ?_, ?_, ?_⟩
  · intro id branch found
    obtain ⟨rfl, rfl⟩ := only found
    exact ⟨fun _ => rfl, fun _ => rfl⟩
  · intro id branch parent found link
    obtain ⟨rfl, rfl⟩ := only found
    cases link
  · intro id branch parent found _ link
    obtain ⟨rfl, rfl⟩ := only found
    cases link
  · intro id branch handle found _ given
    obtain ⟨rfl, rfl⟩ := only found
    cases given
    exact ⟨by decide, rfl⟩
  · intro id other handle alive also _ _
    obtain ⟨_, found, -⟩ := isAlive_iff.mp alive
    obtain ⟨_, again, -⟩ := isAlive_iff.mp also
    exact (only found).1.trans (only again).1.symm

namespace Shows

theorem holds (shows : tree.Shows client) (found : numbered? tree id = some branch) :
    ∃ handle, client.handle? id = some handle :=
  exists_numbered? (shows.count ▸ lt_of_numbered? found)

theorem alive (shows : tree.Shows client) (given : tree.isAlive id = true) :
    ∃ branch handle, numbered? tree id = some branch ∧ branch.alive = true ∧ client.handle? id = some handle := by
  obtain ⟨branch, found, lives⟩ := isAlive_iff.mp given
  obtain ⟨handle, held⟩ := shows.holds found
  exact ⟨branch, handle, found, lives, held⟩

/-! ### Looking up -/

theorem chain (shows : tree.Shows client) (name : String) (found : numbered? tree id = some branch)
    (lives : branch.alive = true) (held : client.handle? id = some handle) :
    ∃ path, client.arena.Chain handle path ∧ path.findSome? (client.arena.binding? name) = tree.lookup name id := by
  -- on the identity: a parent is older than its child, and alive
  induction id using Nat.strongRecOn generalizing branch handle with
  | ind id ih =>
    obtain ⟨-, here⟩ := shows.scope id branch handle found lives held
    have binding : client.arena.binding? name handle = branch.bindings.find? name := by
      rw [binding?, here]
      rfl
    rw [lookup_eq found (fun parent => shows.older id branch parent found)]
    cases link : branch.parent with
    | none =>
      obtain rfl := (shows.top id branch found).mp link
      cases shows.rooted.1.symm.trans held
      refine ⟨[root], .root here (by rw [link]; rfl), ?_⟩
      rw [List.findSome?_cons, binding]
      cases branch.bindings.find? name <;> rfl
    | some parent =>
      obtain ⟨outer, outerHandle, outerFound, outerLives, outerHeld⟩ :=
        shows.alive (shows.parent id branch parent found lives link)
      obtain ⟨path, chain, same⟩ := ih parent (shows.older id branch parent found link) outerFound outerLives outerHeld
      refine ⟨handle :: path, .inner here (by rw [link]; exact outerHeld) chain, ?_⟩
      rw [List.findSome?_cons, binding, same]
      cases branch.bindings.find? name <;> rfl

theorem lookup (shows : tree.Shows client) (given : tree.isAlive id = true) (held : client.handle? id = some handle)
    (name : String) : client.arena.lookup handle name = tree.lookup name id := by
  obtain ⟨branch, found, lives⟩ := isAlive_iff.mp given
  obtain ⟨path, chain, same⟩ := shows.chain name found lives held
  rw [lookup_chain chain, same]

theorem answer? (shows : tree.Shows client) {operation : Operation} (permits : tree.Permits operation) :
    client.answer? operation = tree.answer? operation := by
  cases operation with
  | lookup scope name =>
    obtain ⟨_, handle, -, -, held⟩ := shows.alive permits
    rw [Client.answer?, held, ScopeTree.answer?, ← shows.lookup permits held name]
    rfl
  | child | define | capture | release => rfl

/-! ### Binding and marking -/

/-- The same change to one scope on either side. -/
theorem amend (shows : tree.Shows client) (given : tree.isAlive id = true) (held : client.handle? id = some handle)
    {change : Branch → Branch} {changed : Scope → Scope} {next : Arena} (tidy : next.Tidy)
    (live : ∀ other, client.arena.Live other → next.Live other)
    (scopes : ∀ other, next.get? other =
      if handle = other then (client.arena.get? other).map changed else client.arena.get? other)
    (kept : ∀ branch, (change branch).alive = branch.alive ∧ (change branch).parent = branch.parent)
    (agrees : ∀ branch parent,
      changed ⟨branch.bindings, parent, branch.captured⟩ = ⟨(change branch).bindings, parent, (change branch).captured⟩) :
    Shows (amendNumbered change id tree) ⟨next, client.handles⟩ := by
  have before {other : Nat} {branch : Branch} (found : numbered? (amendNumbered change id tree) other = some branch) :
      ∃ old, numbered? tree other = some old ∧ branch = if id = other then change old else old := by
    rw [numbered?_amendNumbered] at found
    split at found
    · rename_i here
      obtain ⟨old, earlier, rfl⟩ := Option.map_eq_some_iff.mp found
      exact ⟨old, earlier, (if_pos here).symm⟩
    · rename_i elsewhere
      exact ⟨branch, found, (if_neg elsewhere).symm⟩
  have same (other : Nat) (old : Branch) : (if id = other then change old else old).alive = old.alive ∧
      (if id = other then change old else old).parent = old.parent := by
    split
    · exact kept old
    · exact ⟨rfl, rfl⟩
  have alive (other : Nat) : ScopeTree.isAlive (amendNumbered change id tree) other = tree.isAlive other := by
    rw [isAlive, isAlive, numbered?_amendNumbered]
    split
    · cases numbered? tree other with
      | none => rfl
      | some old => exact (kept old).1
    · rfl
  refine ⟨tidy, ?_, ⟨shows.rooted.1, ?_⟩, ?_, ?_, ?_, ?_, ?_⟩
  · rw [length_amendNumbered]
    exact shows.count
  · rw [alive]
    exact shows.rooted.2
  · intro other branch found
    obtain ⟨old, earlier, rfl⟩ := before found
    rw [(same other old).2]
    exact shows.top other old earlier
  · intro other branch parent found link
    obtain ⟨old, earlier, rfl⟩ := before found
    exact shows.older other old parent earlier ((same other old).2 ▸ link)
  · intro other branch parent found lives link
    obtain ⟨old, earlier, rfl⟩ := before found
    rw [alive]
    exact shows.parent other old parent earlier ((same other old).1 ▸ lives) ((same other old).2 ▸ link)
  · intro other branch its found lives theirs
    obtain ⟨old, earlier, rfl⟩ := before found
    rw [(same other old).1] at lives
    obtain ⟨alive, here⟩ := shows.scope other old its earlier lives theirs
    refine ⟨live its alive, ?_⟩
    rw [scopes, (same other old).2, here]
    by_cases equal : id = other
    · subst equal
      cases held.symm.trans theirs
      rw [if_pos rfl, if_pos rfl, Option.map_some, agrees]
      rfl
    · have different : handle ≠ its := by
        rintro rfl
        exact equal (shows.distinct id other handle given (isAlive_iff.mpr ⟨old, earlier, lives⟩) held theirs)
      rw [if_neg different, if_neg equal]
      rfl
  · intro first second its one two
    rw [alive] at one two
    exact shows.distinct first second its one two

theorem define (shows : tree.Shows client) (given : tree.isAlive id = true) (name : String) (value : Value) :
    (tree.step (.define id name value)).Shows (client.step (.define id name value)) := by
  obtain ⟨branch, handle, found, lives, held⟩ := shows.alive given
  have live := (shows.scope id branch handle found lives held).1
  rw [Client.step, Client.act, held]
  exact shows.amend given held (shows.tidy.define live name value) (fun other => (live_define_iff ..).mpr)
    (fun other => get?_define ..) (fun branch => ⟨rfl, rfl⟩) fun branch parent => rfl

theorem capture (shows : tree.Shows client) (given : tree.isAlive id = true) :
    (tree.step (.capture id)).Shows (client.step (.capture id)) := by
  obtain ⟨branch, handle, found, lives, held⟩ := shows.alive given
  have live := (shows.scope id branch handle found lives held).1
  rw [Client.step, Client.act, held]
  exact shows.amend given held (shows.tidy.capture live) (fun other => (live_capture_iff ..).mpr)
    (fun other => get?_capture ..) (fun branch => ⟨rfl, rfl⟩) fun branch parent => rfl

/-! ### Opening and releasing -/

theorem child (shows : tree.Shows client) (given : tree.isAlive id = true) :
    (tree.step (.child id)).Shows (client.step (.child id)) := by
  obtain ⟨_, parentHandle, parentFound, _, parentHeld⟩ := shows.alive given
  have parentOld := lt_of_numbered? parentFound
  simp only [Client.step, parentHeld, child_fst, ScopeTree.step]
  let added : Branch := ⟨[], some id, false, true⟩
  let next : Client := ⟨(client.arena.child parentHandle).2, client.arena.vacant :: client.handles⟩
  -- What is found in the new tree is the new scope, or was there before.
  have before {other : Nat} {branch : Branch} (found : numbered? (added :: tree) other = some branch) :
      (other = tree.length ∧ branch = added) ∨ (other < tree.length ∧ numbered? tree other = some branch) := by
    rw [numbered?] at found
    split at found
    · rename_i same
      exact .inl ⟨same, (Option.some.inj found).symm⟩
    · exact .inr ⟨lt_of_numbered? found, found⟩
  have older {other : Nat} (inside : other < tree.length) : next.handle? other = client.handle? other :=
    numbered?_older _ (shows.count ▸ inside)
  have newest : next.handle? tree.length = some client.arena.vacant := by
    rw [← shows.count]
    exact numbered?_newest _ _
  have still {other : Nat} (alive : tree.isAlive other = true) : ScopeTree.isAlive (added :: tree) other = true := by
    obtain ⟨branch, found, lives⟩ := isAlive_iff.mp alive
    exact isAlive_iff.mpr ⟨branch, (numbered?_older _ (lt_of_numbered? found)).trans found, lives⟩
  have apart {other : Nat} {branch : Branch} {its : ScopeId} (found : numbered? tree other = some branch)
      (lives : branch.alive = true) (held : client.handle? other = some its) : its ≠ client.arena.vacant :=
    fun same => client.arena.vacant_not_live (same ▸ (shows.scope other branch its found lives held).1)
  refine ⟨shows.tidy.child _, congrArg Nat.succ shows.count, ⟨?_, still shows.rooted.2⟩, ?_, ?_, ?_, ?_, ?_⟩
  · exact (older (by omega)).trans shows.rooted.1
  · intro other branch found
    rcases before found with ⟨rfl, rfl⟩ | ⟨-, earlier⟩
    · exact ⟨(absurd · (Option.some_ne_none id)), fun first => absurd (first ▸ parentOld) id.not_lt_zero⟩
    · exact shows.top other branch earlier
  · intro other branch parent found link
    rcases before found with ⟨rfl, rfl⟩ | ⟨-, earlier⟩
    · cases link
      exact parentOld
    · exact shows.older other branch parent earlier link
  · intro other branch parent found lives link
    rcases before found with ⟨rfl, rfl⟩ | ⟨-, earlier⟩
    · cases link
      exact still given
    · exact still (shows.parent other branch parent earlier lives link)
  · intro other branch its found lives held
    rw [live_child_iff shows.tidy, get?_child shows.tidy]
    rcases before found with ⟨rfl, rfl⟩ | ⟨inside, earlier⟩
    · cases newest.symm.trans held
      refine ⟨.inl rfl, ?_⟩
      rw [if_pos rfl]
      exact congrArg (fun parent => some (Scope.mk [] parent false)) ((older parentOld).trans parentHeld).symm
    · have theirs := (older inside).symm.trans held
      obtain ⟨alive, here⟩ := shows.scope other branch its earlier lives theirs
      refine ⟨.inr alive, ?_⟩
      rw [if_neg (Ne.symm (apart earlier lives theirs)), here]
      refine congrArg (fun parent => some (Scope.mk branch.bindings parent branch.captured)) ?_
      refine Option.bind_congr fun parent link => (older ?_).symm
      have := shows.older other branch parent earlier link
      omega
  · intro first second its one two heldOne heldTwo
    obtain ⟨branch, found, lives⟩ := isAlive_iff.mp one
    obtain ⟨also, again, stays⟩ := isAlive_iff.mp two
    rcases before found with ⟨rfl, -⟩ | ⟨inside, earlier⟩ <;> rcases before again with ⟨rfl, -⟩ | ⟨within, before⟩
    · rfl
    · cases newest.symm.trans heldOne
      exact absurd rfl (apart before stays ((older within).symm.trans heldTwo))
    · cases newest.symm.trans heldTwo
      exact absurd rfl (apart earlier lives ((older inside).symm.trans heldOne))
    · exact shows.distinct first second its (isAlive_iff.mpr ⟨branch, earlier, lives⟩)
        (isAlive_iff.mpr ⟨also, before, stays⟩) ((older inside).symm.trans heldOne) ((older within).symm.trans heldTwo)

/-- A release takes effect on both sides or on neither. -/
theorem isReleasable (shows : tree.Shows client) (given : tree.isAlive id = true) (held : client.handle? id = some handle) :
    tree.isReleasable id = true ↔ ¬ client.arena.Lasting handle := by
  obtain ⟨branch, found, lives⟩ := isAlive_iff.mp given
  have same : handle = root ↔ id = 0 := by
    constructor
    · rintro rfl
      exact shows.distinct id 0 root given shows.rooted.2 held shows.rooted.1
    · rintro rfl
      exact Option.some.inj (held.symm.trans shows.rooted.1)
  rw [← isReleasable_iff, Arena.isReleasable, ScopeTree.isReleasable, found,
    (shows.scope id branch handle found lives held).2]
  simp [same]

theorem release (shows : tree.Shows client) (permits : tree.Permits (.release id)) :
    (tree.step (.release id)).Shows (client.step (.release id)) := by
  obtain ⟨given, childless⟩ := permits
  obtain ⟨branch, handle, found, lives, held⟩ := shows.alive given
  have live := (shows.scope id branch handle found lives held).1
  rw [Client.step, Client.act, held, ScopeTree.step]
  by_cases lasting : client.arena.Lasting handle
  · rw [if_neg (fun ends => (shows.isReleasable given held).mp ends lasting)]
    show tree.Shows ⟨client.arena.release handle, client.handles⟩
    rw [release_lasting lasting]
    exact shows
  have ends := (shows.isReleasable given held).mpr lasting
  rw [if_pos ends]
  -- What is alive afterwards was so before, and is another scope.
  have before {other : Nat} {branch : Branch}
      (found : numbered? (amendNumbered (fun branch => { branch with alive := false }) id tree) other = some branch) :
      ∃ old, numbered? tree other = some old ∧ old.parent = branch.parent ∧
        (branch.alive = true → id ≠ other ∧ old = branch) := by
    rw [numbered?_amendNumbered] at found
    split at found
    · obtain ⟨old, earlier, rfl⟩ := Option.map_eq_some_iff.mp found
      exact ⟨old, earlier, rfl, (absurd · Bool.false_ne_true)⟩
    · rename_i different
      exact ⟨branch, found, rfl, fun _ => ⟨different, rfl⟩⟩
  have still {other : Nat} (alive : tree.isAlive other = true) (different : id ≠ other) :
      ScopeTree.isAlive (amendNumbered (fun branch => { branch with alive := false }) id tree) other = true := by
    rw [ScopeTree.isAlive, numbered?_amendNumbered, if_neg different]
    exact alive
  refine ⟨shows.tidy.release live, ?_, ⟨shows.rooted.1, still shows.rooted.2 ?_⟩, ?_, ?_, ?_, ?_, ?_⟩
  · rw [length_amendNumbered]
    exact shows.count
  · rintro rfl
    exact lasting (.inl (Option.some.inj (held.symm.trans shows.rooted.1)))
  · intro other branch found
    obtain ⟨old, earlier, same, -⟩ := before found
    rw [← same]
    exact shows.top other old earlier
  · intro other branch parent found link
    obtain ⟨old, earlier, same, -⟩ := before found
    exact shows.older other old parent earlier (same.trans link)
  · intro other branch parent found lives link
    obtain ⟨old, earlier, -, kept⟩ := before found
    obtain ⟨-, rfl⟩ := kept lives
    refine still (shows.parent other old parent earlier lives link) ?_
    rintro rfl
    exact childless ends old (mem_of_numbered? earlier) lives link
  · intro other branch its found lives theirs
    obtain ⟨old, earlier, -, kept⟩ := before found
    obtain ⟨different, rfl⟩ := kept lives
    obtain ⟨alive, here⟩ := shows.scope other old its earlier lives theirs
    have apart : its ≠ handle := by
      rintro rfl
      exact different (shows.distinct id other its given (isAlive_iff.mpr ⟨old, earlier, lives⟩) held theirs)
    refine ⟨(live_release_iff lasting its).mpr ⟨apart, alive⟩, ?_⟩
    rw [get?_release live lasting, if_neg (Ne.symm apart)]
    exact here
  · intro first second its one two
    obtain ⟨_, found, lives⟩ := isAlive_iff.mp one
    obtain ⟨_, again, stays⟩ := isAlive_iff.mp two
    obtain ⟨old, earlier, -, kept⟩ := before found
    obtain ⟨also, sooner, -, same⟩ := before again
    obtain ⟨-, rfl⟩ := kept lives
    obtain ⟨-, rfl⟩ := same stays
    exact shows.distinct first second its (isAlive_iff.mpr ⟨_, earlier, lives⟩) (isAlive_iff.mpr ⟨_, sooner, stays⟩)

theorem step (shows : tree.Shows client) {operation : Operation} (permits : tree.Permits operation) :
    (tree.step operation).Shows (client.step operation) := by
  cases operation with
  | child parent => exact shows.child permits
  | define scope name value => exact shows.define permits name value
  | lookup => exact shows
  | capture scope => exact shows.capture permits
  | release scope => exact shows.release permits

end Shows

/-! ### Runs -/

def run (tree : ScopeTree) (operations : List Operation) : ScopeTree :=
  operations.foldl step tree

variable {operations : List Operation}

theorem Shows.run (shows : tree.Shows client) (disciplined : tree.Disciplined operations) :
    (tree.run operations).Shows (client.run operations) ∧ client.answers operations = tree.answers operations := by
  induction operations generalizing tree client with
  | nil => exact ⟨shows, rfl⟩
  | cons operation rest ih =>
    obtain ⟨permits, later⟩ := disciplined
    obtain ⟨after, same⟩ := ih (shows.step permits) later
    refine ⟨after, ?_⟩
    rw [Client.answers, ScopeTree.answers, shows.answer? permits, same]

theorem Shows.live_step (shows : tree.Shows client) {operation : Operation} (permits : tree.Permits operation) :
    (client.step operation).arena.live + tree.ended [operation] = client.arena.live + Operation.created [operation] := by
  cases operation with
  | child parent =>
    obtain ⟨_, handle, -, -, held⟩ := shows.alive permits
    simp only [Client.step, held, live_child shows.tidy]
    rfl
  | define scope name value =>
    obtain ⟨_, handle, -, -, held⟩ := shows.alive permits
    simp only [Client.step, Client.act, held, live_define]
    rfl
  | lookup => rfl
  | capture scope =>
    obtain ⟨_, handle, -, -, held⟩ := shows.alive permits
    simp only [Client.step, Client.act, held, live_capture]
    rfl
  | release scope =>
    obtain ⟨branch, handle, found, lives, held⟩ := shows.alive permits.1
    have live := (shows.scope scope branch handle found lives held).1
    have effect := shows.isReleasable permits.1 held
    simp only [Client.step, Client.act, held, ended]
    by_cases lasting : client.arena.Lasting handle
    · rw [if_neg (fun ends => effect.mp ends lasting), release_lasting lasting]
      rfl
    · rw [if_pos (effect.mpr lasting)]
      exact live_release shows.tidy live lasting

theorem Shows.live_run (shows : tree.Shows client) (disciplined : tree.Disciplined operations) :
    (client.run operations).arena.live + tree.ended operations = client.arena.live + Operation.created operations := by
  induction operations generalizing tree client with
  | nil => rfl
  | cons operation rest ih =>
    obtain ⟨permits, later⟩ := disciplined
    have after : (client.run (operation :: rest)).arena.live + _ = _ := ih (shows.step permits) later
    have now := shows.live_step permits
    have created : Operation.created ([operation] ++ rest) = Operation.created [operation] + Operation.created rest :=
      List.countP_append
    rw [List.singleton_append] at created
    simp only [ended, Nat.add_zero] at now ⊢
    omega

end ScopeTree

/-! ### Slots -/

theorem Arena.live_le (arena : Arena) : arena.live ≤ arena.slots.size :=
  Nat.sub_le _ _

/-- A slot is added only where none is free, and then all are alive. -/
theorem Arena.size_child (arena : Arena) (parent : ScopeId) :
    (arena.child parent).2.slots.size = max arena.slots.size (arena.child parent).2.live := by
  obtain ⟨slots, free⟩ := arena
  cases free with
  | nil => simp [child, live]
  | cons slot rest => simp [child, live]

theorem Arena.size_release (arena : Arena) (id : ScopeId) : (arena.release id).slots.size = arena.slots.size := by
  unfold release
  split
  · exact Array.size_setIfInBounds
  · rfl

namespace Client

theorem size_step (client : Client) (operation : Operation) : (client.step operation).arena.slots.size =
    max client.arena.slots.size (client.step operation).arena.live := by
  have same {next : Client} (size : next.arena.slots.size = client.arena.slots.size) :
      next.arena.slots.size = max client.arena.slots.size next.arena.live := by
    rw [Nat.max_eq_left (size ▸ next.arena.live_le), size]
  have acted (id : Nat) {action : Arena → ScopeId → Arena}
      (kept : ∀ handle, (action client.arena handle).slots.size = client.arena.slots.size) :
      (client.act id action).arena.slots.size = client.arena.slots.size := by
    unfold act
    split
    · exact kept _
    · rfl
  cases operation with
  | child parent =>
    cases held : client.handle? parent with
    | none =>
      simp only [step, held]
      exact same rfl
    | some handle =>
      simp only [step, held]
      exact client.arena.size_child handle
  | define scope name value => exact same (acted scope fun handle => Array.size_modify)
  | lookup => exact same rfl
  | capture scope => exact same (acted scope fun handle => Array.size_modify)
  | release scope => exact same (acted scope fun handle => size_release client.arena handle)

theorem size_run (client : Client) (operations : List Operation) :
    client.arena.slots.size ≤ (client.run operations).arena.slots.size ∧
    (∀ count ∈ client.lives operations, count ≤ (client.run operations).arena.slots.size) ∧
    ((client.run operations).arena.slots.size = client.arena.slots.size ∨
      (client.run operations).arena.slots.size ∈ client.lives operations) := by
  induction operations generalizing client with
  | nil => exact ⟨Nat.le_refl _, List.forall_mem_singleton.mpr client.arena.live_le, .inl rfl⟩
  | cons operation rest ih =>
    obtain ⟨grows, bounded, reached⟩ := ih (client.step operation)
    have size := client.size_step operation
    have more : client.arena.slots.size ≤ (client.run (operation :: rest)).arena.slots.size :=
      Nat.le_trans (size ▸ Nat.le_max_left _ _) grows
    refine ⟨more, List.forall_mem_cons.mpr ⟨Nat.le_trans client.arena.live_le more, bounded⟩, ?_⟩
    rcases reached with same | later
    · -- the slots are those after the first operation: as many as before it, or as many as were alive after it
      rcases Nat.le_total (client.step operation).arena.live client.arena.slots.size with fewer | peak
      · exact .inl (same.trans (size.trans (Nat.max_eq_left fewer)))
      · refine .inr (List.mem_cons_of_mem _ ?_)
        show ((client.step operation).run rest).arena.slots.size ∈ (client.step operation).lives rest
        rw [same.trans (size.trans (Nat.max_eq_right peak))]
        cases rest <;> exact List.mem_cons_self
    · exact .inr (List.mem_cons_of_mem _ later)

end Client

/-- An arena that is used with discipline answers every lookup as the tree does in which no identity is ever used again.
Distinct scopes that are alive have distinct handles; as many are alive as have been opened, the root included, less those
whose release took effect; and there are as many slots as scopes were alive at one time. -/
theorem arena_shows_tree {operations : List Operation} (disciplined : ScopeTree.start.Disciplined operations) :
    Client.start.answers operations = ScopeTree.start.answers operations ∧
    (∀ id other, (ScopeTree.start.run operations).isAlive id = true →
      (ScopeTree.start.run operations).isAlive other = true → id ≠ other →
      ∃ handle different, (Client.start.run operations).handle? id = some handle ∧
        (Client.start.run operations).handle? other = some different ∧ handle ≠ different) ∧
    (Client.start.run operations).arena.live + ScopeTree.start.ended operations = 1 + Operation.created operations ∧
    (Client.start.run operations).arena.slots.size ∈ Client.start.lives operations ∧
    ∀ count ∈ Client.start.lives operations, count ≤ (Client.start.run operations).arena.slots.size := by
  obtain ⟨shows, same⟩ := ScopeTree.shows_start.run disciplined
  obtain ⟨-, bounded, reached⟩ := Client.start.size_run operations
  refine ⟨same, ?_, ScopeTree.shows_start.live_run disciplined, ?_, bounded⟩
  · intro id other alive also apart
    obtain ⟨_, handle, -, -, held⟩ := shows.alive alive
    obtain ⟨_, different, -, -, theirs⟩ := shows.alive also
    refine ⟨handle, different, held, theirs, ?_⟩
    rintro rfl
    exact apart (shows.distinct id other handle alive also held theirs)
  · rcases reached with unchanged | peak
    · rw [unchanged]
      cases operations <;> exact List.mem_cons_self
    · exact peak

/-- The slot of a scope that is over is given to a child of a scope in a later slot, from which a name is found. -/
theorem arena_shows_tree_reused :
    ∃ operations : List Operation, ScopeTree.start.Disciplined operations ∧
      (Client.start.run operations).handle? 1 = some ⟨1⟩ ∧ (Client.start.run operations).handle? 2 = some ⟨2⟩ ∧
      (Client.start.run operations).handle? 3 = some ⟨1⟩ ∧
      Client.start.answers operations = [none, some (.boolean false)] ∧
      (Client.start.run operations).arena.live + 1 = 1 + 3 ∧
      (Client.start.run operations).arena.slots.size = 3 ∧ 3 ∈ Client.start.lives operations := by
  let operations : List Operation :=
    [.child 0, .define 1 "x" (.boolean true), .child 0, .define 2 "y" (.boolean false), .release 1, .child 2,
      .lookup 3 "x", .lookup 3 "y", .capture 3, .release 3, .release 0]
  have disciplined : ScopeTree.start.Disciplined operations := by decide +kernel
  have handles : (Client.start.run operations).handle? 1 = some ⟨1⟩ ∧ (Client.start.run operations).handle? 2 = some ⟨2⟩ ∧
      (Client.start.run operations).handle? 3 = some ⟨1⟩ := by
    decide +kernel
  have sizes : ScopeTree.start.ended operations = 1 ∧ Operation.created operations = 3 ∧
      (Client.start.run operations).arena.slots.size = 3 := by
    decide +kernel
  have found : ScopeTree.start.answers operations = [none, some (.boolean false)] := by
    cbv
  obtain ⟨answers, -, live, peak, -⟩ := arena_shows_tree disciplined
  rw [sizes.1, sizes.2.1] at live
  rw [sizes.2.2] at peak
  exact ⟨operations, disciplined, handles.1, handles.2.1, handles.2.2, answers.trans found, live, sizes.2.2, peak⟩

end Parlance
