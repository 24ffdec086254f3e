import Parlance.Proofs.Machine.Sound
import Parlance.Proofs.Moment

/-! Every moment of a session's life is sound: the arena hosts the invocations at work, and what the host and the
evaluation hold leads to scopes that last. Each move of the host and each step of an evaluation keeps this, and takes no
lasting scope away. -/
namespace Parlance

open Arena

namespace Session

theorem hosts_register {session : Session} (hosts : session.arena.Hosts ∅ (some root) []) (builtin : Builtin) :
    (session.register builtin).arena.Hosts ∅ (some root) [] where
  toSeats := hosts.toSeats.define hosts.tidy.rooted builtin.name _
  closed := hosts.closed.define root builtin.name (safe_of_handle? rfl)
  native := hosts.native

theorem hosts_bare (streams : Streams) (filter : Filter) :
    (bare streams filter).arena.Hosts ∅ (some root) [] := by
  have alone : ∀ id, Arena.start.Live id → id = root := by
    rintro ⟨index⟩ ⟨inside, _⟩
    exact congrArg ScopeId.mk (Nat.lt_one_iff.mp inside)
  have empty : ∀ scope, Arena.start.get? root = some scope → scope = Scope.empty :=
    fun scope found => (Option.some.inj found).symm
  have tidy : Arena.start.Tidy := ⟨by decide, by decide, by decide, fun _ free => absurd free List.not_mem_nil⟩
  refine ⟨⟨tidy, List.nodup_nil, ?_, ?_⟩, ⟨?_, ?_, ?_, ?_, ?_, ?_⟩, fun _ _ outside => outside⟩
  · exact fun id member => absurd member List.not_mem_nil
  · rintro id ⟨⟩
    exact ⟨tidy.rooted, List.not_mem_nil⟩
  · exact fun outside => outside
  · exact fun id outside => outside.elim
  · intro scope found
    rw [empty scope found]
    rfl
  · intro id scope home notRoot
    exact absurd (alone id home.1) notRoot
  · intro id home
    rw [alone id home.1]
    exact ⟨[root], .root rfl rfl⟩
  · intro id scope entry home found member
    rw [alone id home.1] at found
    rw [empty scope found] at member
    cases member

/-- A new session's root binds the builtin procedures and nothing else. -/
theorem arena_start (streams : Streams) (filter : Filter) :
    (Session.start streams filter).arena =
      Arena.start.defineAll root (Builtin.table.map fun builtin => (builtin.name, .procedure (.builtin builtin))) := by
  have registered : ∀ (builtins : List Builtin) (session : Session), (builtins.foldl register session).arena =
      session.arena.defineAll root (builtins.map fun builtin => (builtin.name, .procedure (.builtin builtin))) := by
    intro builtins
    induction builtins with
    | nil => exact fun session => rfl
    | cons builtin rest ih => exact fun session => ih (session.register builtin)
  exact registered Builtin.table (bare streams filter)

theorem hosts_start (streams : Streams) (filter : Filter) :
    (Session.start streams filter).arena.Hosts ∅ (some root) [] := by
  have bare := hosts_bare streams filter
  rw [arena_start]
  refine ⟨bare.toSeats.defineAll bare.tidy.rooted _, bare.closed.defineAll root _ ?_, bare.native⟩
  intro entry member
  obtain ⟨builtin, _, rfl⟩ := List.mem_map.mp member
  exact safe_of_handle? rfl

end Session

def Phase.Sound : Phase → Prop
  | .idle session => session.arena.Hosts ∅ (some root) []
  | .busy config => config.Sound ∅ (some root)

namespace Moment

structure Sound (moment : Moment) : Prop where
  phase : moment.phase.Sound
  held : ∀ value ∈ moment.held, moment.arena.Safe ∅ value

theorem sound_start (streams : Streams) (filter : Filter) : (start streams filter).Sound :=
  ⟨Session.hosts_start streams filter, fun _ member => absurd member List.not_mem_nil⟩

namespace Sound

variable {permits : Request → Prop} {now next : Moment}

theorem hosts (sound : now.Sound) : ∃ owned, now.arena.Hosts ∅ (some root) owned := by
  obtain ⟨held, phase⟩ := now
  cases phase with
  | idle session => exact ⟨[], sound.phase⟩
  | busy config => exact ⟨invocations config.stack, sound.phase.hosts⟩

theorem keeps (sound : now.Sound) (move : Next permits now next) : Keeps ∅ now.arena next.arena := by
  cases move with
  | talk | take | run | statement | invoke => exact fun id home lasting => ⟨home, lasting⟩
  | register => exact keeps_define _ _ _
  | step stepped => exact sound.phase.keeps_step (Effect.step Regime.usual_proper stepped)
  | finish stepped =>
    obtain ⟨_, rfl, _⟩ := step_finished stepped
    exact fun id home lasting => ⟨home, lasting⟩

/-- An evaluation that begins holds nothing but what the host passes on. -/
theorem begin {session : Session} (hosts : session.arena.Hosts ∅ (some root) []) {control : Control}
    (safe : ∀ value ∈ control.values, session.arena.Safe ∅ value)
    (placed : ∀ scope, control.scope? = some scope → scope = root) :
    Config.Sound ∅ (some root) ⟨control, [], session⟩ := by
  refine ⟨hosts, ?_, ?_, trivial⟩
  · intro value member
    exact safe value (by simpa [Config.values] using member)
  · intro scope given
    rw [placed scope given]
    rfl

theorem begin_run {session : Session} (hosts : session.arena.Hosts ∅ (some root) []) (program : List Node) :
    Config.Sound ∅ (some root) ⟨.block (session.load program).1 root, [], (session.load program).2⟩ := by
  have loaded : (session.load program).2.arena.Hosts ∅ (some root) [] := hosts
  refine begin loaded (fun value member => by cases member) ?_
  rintro scope ⟨⟩
  rfl

theorem next_phase (sound : now.Sound) (move : Next permits now next) : next.phase.Sound := by
  cases move with
  | talk | take => exact sound.phase
  | register => exact Session.hosts_register sound.phase _
  | @run held session program allowed => exact begin_run sound.phase program
  | @statement held session node allowed =>
    have hosts : ({ session with sites := (node.number session.sites).2 } : Session).arena.Hosts ∅ (some root) [] :=
      sound.phase
    refine begin hosts (fun value member => by cases member) ?_
    rintro scope ⟨⟩
    rfl
  | @invoke held session procedure arguments allowed known =>
    refine begin sound.phase ?_ (fun scope given => absurd given (by simp))
    intro value member
    rcases known value member with kept | plain
    · exact sound.held value kept
    · exact safe_of_handle? plain
  | step stepped => exact sound.phase.step Regime.usual_proper stepped
  | @finish held config outcome session stepped =>
    obtain ⟨ended, rfl, _⟩ := step_finished stepped
    have hosts := sound.phase.hosts
    rw [ended] at hosts
    exact hosts

theorem next_held (sound : now.Sound) (move : Next permits now next) :
    ∀ value ∈ next.held, next.arena.Safe ∅ value := by
  have older : ∀ value ∈ now.held, next.arena.Safe ∅ value :=
    fun value member => (sound.held value member).keep (sound.keeps move)
  cases move with
  | talk | register | run | statement | invoke | step => exact older
  | @take held session scope name value found =>
    intro other member
    rcases List.mem_cons.mp member with rfl | kept
    · have live := sound.phase.tidy.lookup_live found
      exact sound.phase.closed.lookup_safe ⟨live, fun outside => outside⟩ found
    · exact older other kept
  | @finish held config outcome session stepped =>
    intro value member
    rcases List.mem_append.mp member with given | kept
    · obtain ⟨_, rfl, same⟩ := step_finished stepped
      rw [← same] at given
      exact sound.phase.safe value given
    · exact older value kept

theorem move (sound : now.Sound) (move : Next permits now next) : next.Sound :=
  ⟨sound.next_phase move, sound.next_held move⟩

theorem later (sound : now.Sound) (path : Later permits now next) : next.Sound ∧ Keeps ∅ now.arena next.arena := by
  induction path with
  | refl => exact ⟨sound, fun id home lasting => ⟨home, lasting⟩⟩
  | tail _ move ih => exact ⟨ih.1.move move, ih.2.trans (ih.1.keeps move)⟩

end Sound

theorem Reachable.sound {permits : Request → Prop} {moment : Moment} (reached : moment.Reachable permits) :
    moment.Sound :=
  reached.invariant sound_start fun _ _ sound move => sound.move move

end Moment
end Parlance
