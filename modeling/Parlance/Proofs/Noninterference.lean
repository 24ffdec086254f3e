import Parlance.Proofs.FrameLaw
import Parlance.Proofs.Machine.Binding
import Parlance.Proofs.Machine.Twins

/-! Lexical scoping. A procedure sees the scopes that it or its arguments lead to, and no other: whatever is bound elsewhere,
in the scopes of its callers for instance, makes no difference to what an invocation does. -/
namespace Parlance

open Arena

namespace Arena

/-- The scopes that the values lead to, by way of parents and of procedures that are bound. -/
inductive Relevant (arena : Arena) (values : List Value) : ScopeId → Prop
  | handle {value : Value} {id : ScopeId} (member : value ∈ values) (handle : value.handle? = some id) :
      Relevant arena values id
  | parent {id parent : ScopeId} {scope : Scope} (inner : Relevant arena values id)
      (found : arena.get? id = some scope) (link : scope.parent = some parent) : Relevant arena values parent
  | bound {id other : ScopeId} {entry : String × Value} (holder : Relevant arena values id)
      (binds : arena.Binds id entry) (handle : entry.2.handle? = some other) : Relevant arena values other

/-- The live scopes that the values do not lead to. -/
def irrelevant (arena : Arena) (values : List Value) : Set ScopeId :=
  fun id => arena.Live id ∧ ¬ arena.Relevant values id

variable {arena : Arena} {values : List Value}

/-- Among live scopes, the relevant ones are those at home. -/
theorem home_irrelevant_iff {id : ScopeId} (live : arena.Live id) :
    arena.Home (arena.irrelevant values) id ↔ arena.Relevant values id := by
  constructor
  · rintro ⟨_, native⟩
    exact Classical.byContradiction fun outside => native ⟨live, outside⟩
  · exact fun relevant => ⟨live, fun outside => outside.2 relevant⟩

/-- Every way outward ends at the root. -/
theorem Relevant.root {id : ScopeId} {path : List ScopeId} (chain : arena.Chain id path)
    (relevant : arena.Relevant values id) : arena.Relevant values root := by
  induction chain with
  | root found top => exact relevant
  | inner found link outer ih => exact ih (.parent relevant found link)

/-- What can be followed from relevant scopes is relevant. -/
theorem Closed.relevant (closed : arena.Closed ∅) (rooted : arena.Relevant values root) :
    arena.Closed (arena.irrelevant values) := by
  have back : ∀ id, arena.Home (arena.irrelevant values) id → arena.Home ∅ id ∧ arena.Relevant values id :=
    fun id home => ⟨⟨home.1, fun outside => outside⟩, (home_irrelevant_iff home.1).mp home⟩
  refine ⟨fun outside => outside.2 rooted, fun id outside => outside.1, closed.top, ?_, ?_, ?_⟩
  · intro id scope home notRoot found
    obtain ⟨live, relevant⟩ := back id home
    obtain ⟨parent, link, parentHome, lasting⟩ := closed.parent id scope live notRoot found
    exact ⟨parent, link, (home_irrelevant_iff parentHome.1).mpr (.parent relevant found link), lasting⟩
  · exact fun id home => closed.chain id (back id home).1
  · intro id scope entry home found member other handle
    obtain ⟨live, relevant⟩ := back id home
    obtain ⟨otherHome, lasting⟩ := closed.bound id scope entry live found member other handle
    exact ⟨(home_irrelevant_iff otherHome.1).mpr (.bound relevant ⟨scope, found, member⟩ handle), lasting⟩

/-- The second arena has the same shape as the first, and the same bindings in all scopes but the live ones to which the
values do not lead. -/
structure Resembles (values : List Value) (first second : Arena) : Prop where
  free : second.free = first.free
  size : second.slots.size = first.slots.size
  parents : ∀ id, (second.get? id).map Scope.parent = (first.get? id).map Scope.parent
  marks : ∀ id, (second.get? id).map Scope.captured = (first.get? id).map Scope.captured
  bindings : ∀ id, first.Relevant values id ∨ ¬ first.Live id →
    (second.get? id).map Scope.bindings = (first.get? id).map Scope.bindings

theorem Resembles.twins {first second : Arena} (resembles : Resembles values first second) :
    Twins (first.irrelevant values) first second where
  free := resembles.free
  size := resembles.size
  scope id native := by
    have counts : first.Relevant values id ∨ ¬ first.Live id := by
      by_cases live : first.Live id
      · exact Or.inl (Classical.byContradiction fun outside => native ⟨live, outside⟩)
      · exact Or.inr live
    have bindings := resembles.bindings id counts
    have parents := resembles.parents id
    have marks := resembles.marks id
    cases here : first.get? id with
    | none =>
      rw [here] at parents
      exact Option.map_eq_none_iff.mp parents
    | some scope =>
      rw [here] at bindings parents marks
      obtain ⟨other, there, _⟩ := Option.map_eq_some_iff.mp parents
      rw [there] at bindings parents marks ⊢
      cases scope
      cases other
      simp_all

/-- Whatever is bound in a live scope that does not matter. -/
theorem resembles_define {id : ScopeId} (live : arena.Live id) (outside : ¬ arena.Relevant values id) (name : String)
    (value : Value) : Resembles values arena (arena.define id name value) := by
  have field {α : Type} (read : Scope → α) (kept : ∀ scope : Scope,
      read { scope with bindings := scope.bindings.insert name value } = read scope) (other : ScopeId) :
      ((arena.define id name value).get? other).map read = (arena.get? other).map read := by
    rw [get?_define]
    split
    · rw [Option.map_map, Function.comp_def]
      simp only [kept]
    · rfl
  refine ⟨rfl, Array.size_modify .., field _ fun _ => rfl, field _ fun _ => rfl, ?_⟩
  intro other counts
  have different : id ≠ other := by
    rintro rfl
    exact counts.elim outside (absurd live)
  rw [get?_define, if_neg different]

/-- What happened to the first arena happened to the second: scopes that were alive are as they were, and the others have
become the same. -/
structure SameChange (before after other otherAfter : Arena) : Prop where
  free : otherAfter.free = after.free
  size : otherAfter.slots.size = after.slots.size
  old : ∀ id, before.Live id → after.get? id = before.get? id ∧ otherAfter.get? id = other.get? id
  new : ∀ id, ¬ before.Live id → otherAfter.get? id = after.get? id

end Arena

namespace Session

variable {session twin : Session}

theorem invoke_sound (tidy : session.arena.Tidy) (closed : session.arena.Closed ∅) {closure : Closure}
    {arguments : List Value}
    (safe : ∀ value ∈ Value.procedure (.closure closure) :: arguments, session.arena.Safe ∅ value) :
    Config.Sound (session.arena.irrelevant (.procedure (.closure closure) :: arguments)) none
      ⟨.invoke (.closure closure) arguments, [], session⟩ := by
  have scope := safe _ List.mem_cons_self closure.scope rfl
  obtain ⟨path, chain⟩ := closed.chain closure.scope scope.1
  have rooted : session.arena.Relevant (.procedure (.closure closure) :: arguments) root :=
    .root chain (.handle List.mem_cons_self rfl)
  refine ⟨⟨⟨tidy, List.nodup_nil, fun _ member => absurd member List.not_mem_nil, ?_⟩, closed.relevant rooted, ?_⟩,
    ?_, ?_, trivial⟩
  · rintro id ⟨⟩
  · rintro id (member | based)
    · cases member
    · cases based
  · intro value member id handle
    have given : value ∈ Value.procedure (.closure closure) :: arguments := by simpa [Config.values] using member
    obtain ⟨home, lasting⟩ := safe value given id handle
    exact ⟨(home_irrelevant_iff home.1).mpr (.handle given handle), lasting⟩
  · rintro id ⟨⟩

/-- A builtin is done in one step, without a look at the scopes. -/
theorem invoke_builtin_twins {foreign : Set ScopeId} (twins : session.Twins foreign twin) (builtin : Builtin)
    (arguments : List Value) (fuel : Nat) :
    session.invoke fuel (.builtin builtin) arguments = none ∧ twin.invoke fuel (.builtin builtin) arguments = none ∨
    ∃ outcome after twinAfter, session.invoke fuel (.builtin builtin) arguments = some (outcome, after) ∧
      twin.invoke fuel (.builtin builtin) arguments = some (outcome, twinAfter) ∧ after.Twins foreign twinAfter := by
  have begun := Config.Twins.builtin twins builtin arguments []
  have done : ∃ (outcome : Outcome) (after : Session),
      Config.invoke .usual (.builtin builtin) arguments [] session = ⟨outcome.control, [], after⟩ := by
    simp only [Config.invoke]
    split
    · split
      · exact ⟨.ok _, _, rfl⟩
      · exact ⟨.error _, _, rfl⟩
    · exact ⟨.error _, _, rfl⟩
  obtain ⟨outcome, after, ends⟩ := done
  cases fuel with
  | zero => exact Or.inl ⟨rfl, rfl⟩
  | succ fuel =>
    simp only [invoke, Config.run, Config.runUnder, Config.stepUnder]
    generalize Config.invoke .usual (.builtin builtin) arguments [] twin = other at begun
    rw [ends] at begun ⊢
    obtain ⟨_, _, twinAfter⟩ := other
    obtain ⟨alike, rfl, rfl⟩ := begun
    cases fuel with
    | zero => exact Or.inl ⟨rfl, rfl⟩
    | succ fuel => cases outcome <;> exact Or.inr ⟨_, after, twinAfter, rfl, rfl, alike⟩

theorem invoke_twins (tidy : session.arena.Tidy) (closed : session.arena.Closed ∅) {procedure : Procedure}
    {arguments : List Value} (safe : ∀ value ∈ Value.procedure procedure :: arguments, session.arena.Safe ∅ value)
    (twins : session.Twins (session.arena.irrelevant (.procedure procedure :: arguments)) twin) (fuel : Nat) :
    session.invoke fuel procedure arguments = none ∧ twin.invoke fuel procedure arguments = none ∨
    ∃ outcome after twinAfter, session.invoke fuel procedure arguments = some (outcome, after) ∧
      twin.invoke fuel procedure arguments = some (outcome, twinAfter) ∧
      after.Twins (session.arena.irrelevant (.procedure procedure :: arguments)) twinAfter := by
  cases procedure with
  | builtin b => exact invoke_builtin_twins twins b arguments fuel
  | closure c => exact Config.Twins.run fuel (invoke_sound tidy closed safe) ⟨twins, rfl, rfl⟩

end Session

namespace Moment

variable {permits : Request → Prop}

/-- The values that there are: those that the host or the evaluation holds, those that are bound, and those that lead
nowhere. -/
inductive Knows (moment : Moment) (value : Value) : Prop
  | held (member : value ∈ moment.held)
  | working (member : value ∈ moment.phase.values)
  | bound (id : ScopeId) (name : String) (live : moment.arena.Live id) (binds : moment.arena.Binds id (name, value))
  | plain (none : value.handle? = none)

theorem Knows.safe {moment : Moment} (sound : moment.Sound) {value : Value} (knows : moment.Knows value) :
    moment.arena.Safe ∅ value := by
  cases knows with
  | held member => exact sound.held value member
  | working member =>
    obtain ⟨held, phase⟩ := moment
    cases phase with
    | idle session => cases member
    | busy config => exact sound.phase.safe value member
  | bound id name live binds =>
    obtain ⟨owned, hosts⟩ := sound.hosts
    obtain ⟨scope, found, member⟩ := binds
    exact hosts.closed.bound id scope (name, value) ⟨live, fun outside => outside⟩ found member
  | plain none => exact safe_of_handle? none

/-- What an invocation does depends on the scopes that the procedure and its arguments lead to. Another session with the
same streams, whose arena has the same shape and the same bindings in these scopes, and any bindings in all others that are
alive, takes it to the same outcome in the same number of steps, or to none; the streams are the same afterwards, and what
has changed in the arenas is the same. -/
theorem invocation_noninterference {moment : Moment} (reached : moment.Reachable permits) {procedure : Procedure}
    {arguments : List Value} (known : ∀ value ∈ Value.procedure procedure :: arguments, moment.Knows value)
    {other : Session} (streams : other.streams = moment.phase.session.streams)
    (resembles : Resembles (.procedure procedure :: arguments) moment.arena other.arena) (fuel : Nat) :
    moment.phase.session.invoke fuel procedure arguments = none ∧ other.invoke fuel procedure arguments = none ∨
    ∃ outcome after otherAfter,
      moment.phase.session.invoke fuel procedure arguments = some (outcome, after) ∧
      other.invoke fuel procedure arguments = some (outcome, otherAfter) ∧
      otherAfter.streams = after.streams ∧
      SameChange moment.arena after.arena other.arena otherAfter.arena := by
  obtain ⟨owned, hosts⟩ := reached.sound.hosts
  have safe : ∀ value ∈ Value.procedure procedure :: arguments, moment.arena.Safe ∅ value :=
    fun value member => (known value member).safe reached.sound
  have twins : moment.phase.session.Twins (moment.arena.irrelevant (.procedure procedure :: arguments)) other :=
    ⟨resembles.twins, streams⟩
  refine (Session.invoke_twins hosts.tidy hosts.closed safe twins fuel).imp_right ?_
  rintro ⟨outcome, after, otherAfter, ran, otherRan, ended⟩
  have otherTidy := resembles.twins.tidy hosts.tidy fun id outside => outside.1
  refine ⟨outcome, after, otherAfter, ran, otherRan, ended.streams, ended.arena.free, ended.arena.size, ?_, ?_⟩
  · intro id live
    have otherLive := (resembles.twins.live_iff id).mpr live
    exact ⟨(Session.invoke_frame hosts.tidy ran id live).2, (Session.invoke_frame otherTidy otherRan id otherLive).2⟩
  · exact fun id gone => ended.arena.scope id fun outside => gone outside.1

/-- Scope #1 is alive and binds `x`; so does the root, where the procedure is defined. Whatever scope #1 binds it to, the
procedure finds the root's. -/
theorem invocation_noninterference_shadowed :
    ∃ (moment : Moment) (other : Session) (closure : Closure), moment.Reachable (fun _ => True) ∧
      moment.arena.lookup ⟨1⟩ "x" = some (.boolean true) ∧ other.arena.lookup ⟨1⟩ "x" = some (.boolean false) ∧
      Resembles [.procedure (.closure closure), .nothing] moment.arena other.arena ∧
      ∃ after otherAfter, moment.phase.session.invoke 20 (.closure closure) [.nothing] = some (.ok .nothing, after) ∧
        other.invoke 20 (.closure closure) [.nothing] = some (.ok .nothing, otherAfter) ∧
        SameChange moment.arena after.arena other.arena otherAfter.arena := by
  have ran : ∃ outcome session closure scope after, (Session.start (.ofInput []) .silent).run 60
      [.definition "make" ["x"] [.definition "get" ["y"] [.returns (.identifier "x" 3) 3] 0 2] 0 1,
        .call (.identifier "make" 4) [.literal (.boolean true) 4] 4,
        .assignment (.identifier "x" 5) (.literal .nothing 5) 5,
        .definition "find" ["y"] [.returns (.identifier "x" 7) 7] 0 6] = some (outcome, session) ∧
      session.arena.Live root ∧ session.arena.Live ⟨1⟩ ∧ closure.scope = root ∧
      session.arena.lookup ⟨1⟩ "x" = some (.boolean true) ∧
      (session.define ⟨1⟩ "x" (.boolean false)).arena.lookup ⟨1⟩ "x" = some (.boolean false) ∧
      session.arena.get? root = some scope ∧ scope.parent = none ∧
      scope.bindings.find? "find" = some (.procedure (.closure closure)) ∧
      (scope.bindings.all fun entry => entry.2.handle?.all (· = root)) = true ∧
      session.invoke 20 (.closure closure) [.nothing] = some (.ok .nothing, after) :=
    ⟨_, _, _, _, _, rfl, by decide, by decide, rfl, rfl, rfl, rfl, rfl, rfl, rfl, rfl⟩
  obtain ⟨outcome, session, closure, scope, after, ran, live, inner, defined, bound, rebound, found, top, named, closed,
    ended⟩ := ran
  have reached : Reachable (fun _ => True) ⟨_, .idle session⟩ := ⟨_, _, Session.run_later [] trivial ran⟩
  have onlyRoot : ∀ id, session.arena.Relevant [.procedure (.closure closure), .nothing] id → id = root := by
    intro id relevant
    induction relevant with
    | @handle value id member handle =>
      simp only [List.mem_cons, List.not_mem_nil, or_false] at member
      rcases member with rfl | rfl
      · exact (Option.some.inj handle).symm.trans defined
      · cases handle
    | parent inner here link ih =>
      rw [ih, found] at here
      cases here
      rw [top] at link
      cases link
    | bound holder binds handle ih =>
      obtain ⟨there, here, member⟩ := binds
      rw [ih, found] at here
      cases here
      simpa [handle] using List.all_eq_true.mp closed _ member
  have resembles : Resembles [.procedure (.closure closure), .nothing] session.arena
      (session.define ⟨1⟩ "x" (.boolean false)).arena :=
    resembles_define inner (fun relevant => by cases onlyRoot _ relevant) "x" (.boolean false)
  have known : ∀ value ∈ [Value.procedure (.closure closure), .nothing],
      Knows ⟨Outcome.values outcome ++ [], .idle session⟩ value := by
    simp only [List.forall_mem_cons, List.not_mem_nil, false_imp_iff, implies_true, and_true]
    exact ⟨.bound root "find" live ⟨scope, found, Bindings.mem_of_find? named⟩, .plain rfl⟩
  have streams : (session.define ⟨1⟩ "x" (.boolean false)).streams = session.streams := rfl
  rcases invocation_noninterference reached known streams resembles 20 with
    ⟨never, _⟩ | ⟨result, final, otherAfter, first, second, _, same⟩
  · cases ended.symm.trans never
  · cases ended.symm.trans first
    exact ⟨_, _, closure, reached, bound, rebound, resembles, _, otherAfter, ended, second, same⟩

end Moment
end Parlance
