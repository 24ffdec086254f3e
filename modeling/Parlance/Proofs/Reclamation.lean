import Parlance.Proofs.Machine.Mirror
import Parlance.Proofs.Moment.Sound

/-! Giving scopes back cannot be noticed. Beside the usual evaluation stands one that keeps every scope for good. Of a
program that both run, either neither run ends or both do, after the same number of steps and with outcomes that differ
in the handles of scopes only. A program can show handles in one way, through `debug`, so there they are masked. -/
namespace Parlance

open Arena

/-- Scopes are never given back, so every invocation gets a new one. -/
def Regime.keeping : Regime :=
  ⟨fun session _ => session, Session.act⟩

/-- Like `Session.act`, but `debug` writes every procedure as if its scope were the root. -/
def Session.actMasked (session : Session) (action : Action) (arguments : List Value) : Except Fault Value × Session :=
  match action with
  | .inspect =>
    let (answer, streams) := Action.writing session.streams
      (String.join (arguments.map fun a => (a.rename fun _ => root).inspect ++ "\n")) (arguments.headD .nothing)
    (answer, { session with streams })
  | other => session.act other arguments

theorem Session.actMasked_eq : actMasked = actShowing (Value.rename fun _ => root) := by
  funext session action arguments
  cases action <;> rfl

def Regime.masked (regime : Regime) : Regime :=
  { regime with act := Session.actMasked }

theorem Regime.masked_eq (regime : Regime) : regime.masked = regime.showing (Value.rename fun _ => root) :=
  congrArg (Regime.mk regime.close) Session.actMasked_eq

/-- The texts are the same but for numbers of scopes, as `debug` writes them. -/
inductive Text.Alike : String → String → Prop
  | same (text : String) : Alike text text
  | handle (one other : ScopeId) : Alike one.inspect other.inspect
  | append {front back front' back' : String} (before : Alike front front') (after : Alike back back') :
      Alike (front ++ back) (front' ++ back')

/-- Sinks without bound, since the number of a scope may be longer than another. -/
structure Streams.Alike (first second : Streams) : Prop where
  written : Text.Alike first.output.written second.output.written
  room : first.output.room = none ∧ second.output.room = none
  error : second.error = first.error
  input : second.input = first.input

/-! ### What `debug` writes -/

section Debug

variable {move : ScopeId → ScopeId}

theorem Closure.inspect_alike (closure : Closure) : Text.Alike closure.inspect (closure.rename move).inspect :=
  .append (.append (.same _) (.append (.same _) (.append (.same _) (.handle _ _)))) (.same _)

theorem Value.inspect_alike (value : Value) : Text.Alike value.inspect (value.rename move).inspect := by
  cases value with
  | procedure procedure =>
    cases procedure with
    | builtin b => exact .same _
    | closure c => exact .append (.append (.same _) (.append (.append (.same _) c.inspect_alike) (.same _))) (.same _)
  | nothing | boolean | number | text => exact .same _

theorem Value.inspectAll_alike (move : ScopeId → ScopeId) (values : List Value) :
    Text.Alike (String.join (values.map fun value => value.inspect ++ "\n"))
      (String.join ((values.map (Value.rename move)).map fun value => value.inspect ++ "\n")) := by
  rw [List.map_map]
  exact Text.join_related .append (.same "") values fun value => .append value.inspect_alike (.same "\n")

/-- All renamings look the same once every handle is masked. -/
theorem Value.mask_rename (value : Value) :
    (value.rename move).rename (fun _ => root) = value.rename fun _ => root := by
  cases value with
  | procedure procedure => cases procedure <;> rfl
  | nothing | boolean | number | text => rfl

theorem Value.first_rename (values : List Value) :
    (values.map (Value.rename move)).headD .nothing = (values.headD .nothing).rename move := by
  rw [rename_eq_image]
  exact first_image values

end Debug

/-! ### Streams -/

theorem Streams.alike_iff {first second : Streams} : first.Alike second ↔ first.Similar Text.Alike second := by
  constructor
  · exact fun alike => ⟨alike.written, alike.room, alike.error, alike.input⟩
  · exact fun similar => ⟨similar.written, similar.room, similar.error, similar.input⟩

theorem Streams.Alike.write {first second : Streams} (alike : first.Alike second) {text twin : String}
    (texts : Text.Alike text twin) :
    (second.write twin).1 = (first.write text).1 ∧ (first.write text).2.Alike (second.write twin).2 := by
  rw [alike_iff] at alike ⊢
  exact alike.write .append texts

theorem Streams.congruent_alike : Streams.Congruent Streams.Alike where
  write _ _ text alike := alike.write (.same text)
  readLine first second alike := by
    rw [alike_iff] at alike ⊢
    exact alike.readLine

/-! ### The regimes match -/

namespace Regime

theorem keeping_tame : keeping.Tame where
  close _ _ := ⟨rfl, rfl⟩
  act _ _ _ := ⟨rfl, rfl⟩

theorem Tame.masked {regime : Regime} (tame : regime.Tame) : regime.masked.Tame := by
  rw [masked_eq]
  exact tame.showing _

theorem Proper.masked {regime : Regime} (proper : regime.Proper) : regime.masked.Proper := by
  rw [masked_eq]
  exact proper.showing _

/-- Masked, `debug` cannot tell the two evaluations apart either. -/
theorem masked_matches : usual.masked.Matches Eq keeping.masked where
  proper := usual_proper.masked
  tame := usual_tame.masked
  tameSecond := keeping_tame.masked
  close _ _ := Or.inl rfl
  act move one other action arguments alike := by
    by_cases shown : action = .inspect
    · subst shown
      have texts : ((arguments.map (Value.rename move)).map fun a => (a.rename fun _ => root).inspect ++ "\n") =
          arguments.map fun a => (a.rename fun _ => root).inspect ++ "\n" := by
        rw [List.map_map]
        exact List.map_congr_left fun value _ => by rw [Function.comp_apply, Value.mask_rename]
      simp only [masked, Session.actMasked, texts, Value.first_rename]
      exact Action.writing_rename move (Streams.congruent_eq.write _ _ _ alike) _
    · simp only [masked, Session.actMasked_eq, Session.actShowing_blind _ shown]
      exact Action.run_rename Streams.congruent_eq alike shown arguments

theorem keeping_matches : usual.Matches Streams.Alike keeping where
  proper := usual_proper
  tame := usual_tame
  tameSecond := keeping_tame
  close _ _ := Or.inl rfl
  act move one other action arguments alike := by
    by_cases shown : action = .inspect
    · subst shown
      have acted := Action.writing_rename move (alike.write (Value.inspectAll_alike move arguments))
        (arguments.headD .nothing)
      rw [← Value.first_rename] at acted
      exact acted
    · exact Action.run_rename Streams.congruent_alike alike shown arguments

end Regime

/-! ### Whole runs -/

/-- Two runs, given by what they have come to after so many steps. At any time both are under way or both are over; and
then the outcomes, with the texts of their errors, and the sessions are the same up to one renaming of scopes. It is an
extension of the renaming with which the runs began, on the scopes that lasted. -/
def Lockstep (related : Streams → Streams → Prop) (move : Equiv.Perm ScopeId) (arena : Arena)
    (one other : Nat → Option (Outcome × Session)) : Prop :=
  ∀ fuel, one fuel = none ∧ other fuel = none ∨
    ∃ outcome after kept, ∃ next : Equiv.Perm ScopeId, one fuel = some (outcome, after) ∧
      other fuel = some (outcome.rename next, kept) ∧
      (∀ escape, outcome = .error escape → (escape.rename next).message = escape.message) ∧
      after.Mirrors related next ∅ kept ∧ ∀ id, arena.Live id → arena.Lasting id → next id = move id

theorem Session.Mirrors.refl {related : Streams → Streams → Prop} {session : Session} (tidy : session.arena.Tidy)
    (same : related session.streams session.streams) : session.Mirrors related (.refl _) ∅ session :=
  ⟨.refl tidy, same, rfl⟩

theorem Session.Mirrors.lockstep {related : Streams → Streams → Prop} {move : Equiv.Perm ScopeId}
    {regime other : Regime} {session kept : Session} (matched : regime.Matches related other)
    (hosts : session.arena.Hosts ∅ (some root) []) (mirrors : session.Mirrors related move ∅ kept)
    (program : List Node) :
    Lockstep related move session.arena (session.runUnder regime · program) (kept.runUnder other · program) := by
  intro fuel
  have loaded : kept.load program =
      ((session.load program).1, { kept with sites := (session.load program).2.sites }) := by
    unfold load
    rw [mirrors.sites]
  have mirrored : Config.Mirrors related move ∅ ⟨.block (session.load program).1 root, [], (session.load program).2⟩
      ⟨.block (kept.load program).1 root, [], (kept.load program).2⟩ := by
    rw [loaded]
    refine ⟨⟨mirrors.arena, mirrors.streams, rfl⟩, ?_, rfl⟩
    simp only [Control.rename, mirrors.arena.rooted]
  refine (mirrored.run matched fuel (Moment.Sound.begin_run hosts program)).imp_right ?_
  rintro ⟨outcome, after, keptAfter, next, ran, keptRan, mirroredAfter, older⟩
  refine ⟨outcome, after, keptAfter, next, ran, keptRan, ?_, mirroredAfter, ?_⟩
  · exact fun escape _ => escape.message_rename
  · exact fun id live lasting => older id ⟨live, fun outside => outside⟩ lasting

namespace Moment

/-- Whatever has happened in a session, a program runs there as it does in an evaluation that never gives a scope back:
in the same session, or in any other that differs from it by a renaming of scopes, as those do in which both evaluations
have come to an end before. With `debug` masked, they leave the same streams; as it is, they write the same but for
numbers of scopes. -/
theorem reclamation_unobservable {permits : Request → Prop} {held : List Value} {session : Session}
    (reached : Reachable permits ⟨held, .idle session⟩) (program : List Node) :
    session.Mirrors Eq (.refl _) ∅ session ∧
    (session.streams.output.room = none → session.Mirrors Streams.Alike (.refl _) ∅ session) ∧
    (∀ kept move, session.Mirrors Eq move ∅ kept → Lockstep Eq move session.arena
      (session.runUnder Regime.usual.masked · program) (kept.runUnder Regime.keeping.masked · program)) ∧
    ∀ kept move, session.Mirrors Streams.Alike move ∅ kept → Lockstep Streams.Alike move session.arena
      (session.run · program) (kept.runUnder Regime.keeping · program) := by
  have hosts : session.arena.Hosts ∅ (some root) [] := reached.sound.phase
  refine ⟨.refl hosts.tidy rfl, ?_, ?_, ?_⟩
  · exact fun unbounded => .refl hosts.tidy ⟨.same _, ⟨unbounded, unbounded⟩, rfl, rfl⟩
  · exact fun kept move mirrors => mirrors.lockstep Regime.masked_matches hosts program
  · exact fun kept move mirrors => mirrors.lockstep Regime.keeping_matches hosts program

/-- The scope of a call that is over goes to the next one, which captures it as #1; without reclamation it is #2. -/
theorem reclamation_unobservable_despite_reuse :
    ∃ session program after kept closure, ∃ move : Equiv.Perm ScopeId,
      Reachable (fun _ => True) ⟨[], .idle session⟩ ∧
      session.run 60 program = some (.ok (.procedure (.closure closure)), after) ∧
      session.runUnder .keeping 60 program = some (.ok (.procedure (.closure (closure.rename move))), kept) ∧
      closure.scope = ⟨1⟩ ∧ move ⟨1⟩ = ⟨2⟩ ∧ after.streams.Alike kept.streams := by
  have runs : ∃ program closure after closure' kept,
      (Session.start (.ofInput []) .silent).run 60 program = some (.ok (.procedure (.closure closure)), after) ∧
      (Session.start (.ofInput []) .silent).runUnder .keeping 60 program =
        some (.ok (.procedure (.closure closure')), kept) ∧ closure.scope = ⟨1⟩ ∧ closure'.scope = ⟨2⟩ :=
    ⟨[.definition "same" ["x"] [.returns (.identifier "x" 2) 2] 0 1,
        .call (.identifier "same" 3) [.literal (.boolean true) 3] 3,
        .definition "make" ["x"] [.definition "get" ["y"] [.returns (.identifier "x" 6) 6] 0 5,
          .returns (.identifier "get" 7) 7] 0 4,
        .call (.identifier "make" 8) [.literal (.boolean true) 8] 8], _, _, _, _, rfl, rfl, rfl, rfl⟩
  obtain ⟨program, closure, after, closure', kept, ran, keptRan, one, two⟩ := runs
  have reached : Reachable (fun _ => True) (start (.ofInput []) .silent) := ⟨_, _, .refl⟩
  obtain ⟨_, same, _, lockstep⟩ := reclamation_unobservable reached program
  rcases lockstep _ _ (same rfl) 60 with ⟨unfinished, _⟩ | ⟨_, _, _, move, ended, keptEnded, _, mirrors, _⟩
  · cases unfinished.symm.trans ran
  · cases ended.symm.trans ran
    cases keptEnded.symm.trans keptRan
    exact ⟨_, program, after, kept, closure, move, reached, ran, keptRan, one, one ▸ two, mirrors.streams⟩

end Moment
end Parlance
