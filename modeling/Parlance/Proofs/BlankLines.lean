import Mathlib
import Parlance.Proofs.Machine.Relined
import Parlance.Proofs.Node.Extension
import Parlance.Proofs.Node.Yields

/-! Blank lines. A source runs as it does with a blank line more, wherever the line is put in: the runs end together,
with the same result, streams and scopes, and only the line numbers in them differ. A program can show line numbers in
one way, through `debug`, so there they are masked. -/
namespace Parlance

/-! ### Sources -/

/-- The source with one line more, which is blank. -/
inductive Source.Padded : Source → Source → Prop
  | line (name : String) (before after : List RawLine) {blank : String} (nothing : Text.allBlank blank.toList = true) :
      Padded ⟨name, before ++ after⟩ ⟨name, before ++ some blank :: after⟩

/-- In a text, such a line goes where another one begins. -/
theorem Source.Padded.ofText (name back : String) {front blank : String}
    (begins : front = "" ∨ ∃ rest, front = rest ++ "\n") (nothing : Text.allBlank blank.toList = true)
    (single : '\n' ∉ blank.toList) :
    (Source.ofText name (front ++ back)).Padded (Source.ofText name (front ++ (blank ++ "\n" ++ back))) := by
  obtain ⟨kept, inside, cut⟩ := @Text.splitLines_line Char _ '\n' '\r' _ single back.toList
  have blanks : Text.allBlank (String.ofList kept).toList = true := by
    rw [String.toList_ofList]
    exact List.all_eq_true.mpr fun c member => List.all_eq_true.mp nothing c (inside c member)
  obtain ⟨before, split⟩ : ∃ before, ∀ rest : List Char, Text.splitLines '\n' '\r' (front.toList ++ rest) =
      before ++ Text.splitLines '\n' '\r' rest := by
    rcases begins with rfl | ⟨start, rfl⟩
    · exact ⟨[], fun rest => rfl⟩
    · refine ⟨Text.splitLines '\n' '\r' (start.toList ++ ['\n']), fun rest => ?_⟩
      rw [String.toList_append, List.append_assoc]
      exact Text.splitLinesFrom_append [] start.toList rest
  have here : RawLine.ofText (front ++ back) =
      before.map (fun line => some (String.ofList line)) ++ RawLine.ofText back := by
    rw [RawLine.ofText, String.toList_append, split, List.map_append]
    rfl
  have there : RawLine.ofText (front ++ (blank ++ "\n" ++ back)) =
      before.map (fun line => some (String.ofList line)) ++ some (String.ofList kept) :: RawLine.ofText back := by
    rw [RawLine.ofText, String.toList_append, split, List.map_append, String.toList_append, String.toList_append,
      List.append_assoc]
    exact congrArg (_ ++ List.map _ ·) cut
  rw [Source.ofText, Source.ofText, here, there]
  exact .line name _ _ blanks

/-! ### Reading -/

/-- All lines as one. -/
def Relocation.unlined : Relocation :=
  ⟨id, fun _ => 0⟩

def ProgramError.unlined : ProgramError → ProgramError
  | .unreadable error => .unreadable (error.relocate .unlined)
  | .ungrammatical error => .ungrammatical (error.relocate .unlined)
  | .failed failure => .failed (failure.relined fun _ => 0)
  | .stray keyword => .stray keyword

theorem Source.readStatements_unlined {source : Source} {tokens : List Token}
    (lexed : source.tokens.result = .ok tokens) :
    (Program.readStatements (tokens.map (Token.relocate .unlined))).result =
      Relocation.unlined.echo (Node.relinedAll fun _ => 0) (Program.readStatements tokens).result := by
  rw [(tokens_stream lexed).1]
  exact Program.readStatements_relocate .unlined _ source.groups_sound

namespace Source.Padded

variable {source padded : Source}

theorem tokens (more : source.Padded padded) :
    Relocation.unlined.tokens source.tokens.result = Relocation.unlined.tokens padded.tokens.result := by
  cases more with
  | line name before after nothing =>
    rw [tokens_lines, tokens_lines]
    exact Layout.lines_padded (fun _ _ => rfl) name nothing before after .start 0 0

theorem program (more : source.Padded padded) :
    recast ProgramError.unlined (Node.relinedAll fun _ => 0) source.program.result =
      recast ProgramError.unlined (Node.relinedAll fun _ => 0) padded.program.result := by
  have same := more.tokens
  cases lexed : source.tokens.result with
  | error error =>
    cases lexedToo : padded.tokens.result with
    | error other =>
      rw [lexed, lexedToo] at same
      rw [Source.program, Source.program, lexed, lexedToo]
      exact congrArg (Except.error ∘ ProgramError.unreadable) (Except.error.inj same)
    | ok others =>
      rw [lexed, lexedToo] at same
      cases same
  | ok tokens =>
    cases lexedToo : padded.tokens.result with
    | error other =>
      rw [lexed, lexedToo] at same
      cases same
    | ok others =>
      rw [lexed, lexedToo] at same
      have alike : tokens.map (Token.relocate .unlined) = others.map (Token.relocate .unlined) := Except.ok.inj same
      have read := readStatements_unlined lexed
      rw [alike, readStatements_unlined lexedToo] at read
      have blamed (result : Except GrammarError (List Node)) :
          recast ProgramError.unlined (Node.relinedAll fun _ => 0) (result.mapError .ungrammatical) =
            (Relocation.unlined.echo (Node.relinedAll fun _ => 0) result).mapError .ungrammatical := by
        cases result <;> rfl
      rw [program_result lexed, program_result lexedToo, blamed, blamed, read]

end Source.Padded

/-! ### Streams -/

/-- The texts are the same but for line numbers, where `debug` writes them. -/
inductive Text.Kin : String → String → Prop
  | same (text : String) : Kin text text
  | debugged {one other : Value} (alike : one.relined (fun _ => 0) = other.relined fun _ => 0) :
      Kin one.inspect other.inspect
  | append {front back front' back' : String} (before : Kin front front') (after : Kin back back') :
      Kin (front ++ back) (front' ++ back')

theorem Streams.congruent_kin : Streams.Congruent (Streams.Similar Text.Kin) where
  write _ _ text similar := similar.write .append (.same text)
  readLine _ _ similar := similar.readLine

/-! ### Builtins -/

section Answers

variable {related : Streams → Streams → Prop} {one other : Streams} (first second : Nat → Nat)

theorem Action.run_relined (congruent : Streams.Congruent related) (alike : related one other) {action : Action}
    (blind : action ≠ .inspect) (arguments : List Value) :
    ∃ answer, (action.run one (arguments.map (Value.relined first))).1 = imageAnswer (Procedure.relined first) answer ∧
      (action.run other (arguments.map (Value.relined second))).1 = imageAnswer (Procedure.relined second) answer ∧
      related (action.run one (arguments.map (Value.relined first))).2
        (action.run other (arguments.map (Value.relined second))).2 := by
  have named (line : Nat → Nat) (procedure : Procedure) : (procedure.relined line).describe = procedure.describe :=
    procedure.describe_relined
  obtain ⟨here, same⟩ := run_image (named first) Streams.congruent_eq rfl blind arguments
  obtain ⟨there, after⟩ := run_image (named second) congruent alike blind arguments
  rw [same] at after
  exact ⟨_, here, there, after⟩

/-- What `debug` gives back is its first argument. -/
theorem Action.writing_relined {text twin : String}
    (written : (other.write twin).1 = (one.write text).1 ∧ related (one.write text).2 (other.write twin).2)
    (arguments : List Value) :
    ∃ answer, (writing one text ((arguments.map (Value.relined first)).headD .nothing)).1 =
        imageAnswer (Procedure.relined first) answer ∧
      (writing other twin ((arguments.map (Value.relined second)).headD .nothing)).1 =
        imageAnswer (Procedure.relined second) answer ∧
      related (writing one text ((arguments.map (Value.relined first)).headD .nothing)).2
        (writing other twin ((arguments.map (Value.relined second)).headD .nothing)).2 := by
  have same : (one.write text).1 = (one.write text).1 ∧ (one.write text).2 = (one.write text).2 := ⟨rfl, rfl⟩
  have here := (writing_image (Procedure.relined first) same (arguments.headD .nothing)).1
  obtain ⟨there, after⟩ := writing_image (Procedure.relined second) written (arguments.headD .nothing)
  rw [← Value.first_image] at here there
  exact ⟨_, here, there, after⟩

end Answers

/-- Like `Regime.usual`, but `debug` writes zero for every line number. -/
def Regime.unlined : Regime :=
  Regime.usual.showing (Value.relined fun _ => 0)

namespace Regime

theorem unlined_blind : Regime.unlined.Blind Eq where
  proper := usual_proper.showing _
  tame := usual_tame.showing _
  act first second one other action arguments alike := by
    by_cases debugs : action = .inspect
    · subst debugs
      have texts (line : Nat → Nat) :
          (arguments.map (Value.relined line)).map (fun a => (a.relined fun _ => 0).inspect ++ "\n") =
            arguments.map fun a => (a.relined fun _ => 0).inspect ++ "\n" := by
        rw [List.map_map]
        exact List.map_congr_left fun value _ => by rw [Function.comp_apply, Value.relined_relined]
      simp only [unlined, showing, Session.actShowing, texts]
      exact Action.writing_relined first second (Streams.congruent_eq.write _ _ _ alike) arguments
    · simp only [unlined, showing, Session.actShowing_blind _ debugs]
      exact Action.run_relined first second Streams.congruent_eq alike debugs arguments

theorem usual_blind : Regime.usual.Blind (Streams.Similar Text.Kin) where
  proper := usual_proper
  tame := usual_tame
  act first second one other action arguments alike := by
    by_cases debugs : action = .inspect
    · subst debugs
      have texts : Text.Kin (String.join ((arguments.map (Value.relined first)).map fun a => a.inspect ++ "\n"))
          (String.join ((arguments.map (Value.relined second)).map fun a => a.inspect ++ "\n")) := by
        rw [List.map_map, List.map_map]
        refine Text.join_related .append (.same "") arguments fun value => .append (.debugged ?_) (.same "\n")
        rw [Value.relined_relined, Value.relined_relined]
      exact Action.writing_relined first second (alike.write .append texts) arguments
    · exact Action.run_relined first second Streams.congruent_kin alike debugs arguments

end Regime

/-! ### Executions -/

theorem Outcome.mapError_unlined (outcome : Outcome) :
    recast ProgramError.unlined (Value.relined fun _ => 0) (outcome.mapError .ofEscape) =
      (Outcome.relined (fun _ => 0) outcome).mapError .ofEscape := by
  cases outcome with
  | ok value => rfl
  | error escape => cases escape <;> rfl

namespace Session

def executeUnder (regime : Regime) (session : Session) (fuel : Nat) (source : Source) :
    Option (Except ProgramError Value × Session) :=
  let read := source.program
  let session := session.noteAll read.events
  match read.result with
  | .error error => some (.error error, session)
  | .ok program => do
    let session := session.note (.programStarted source.name program.length)
    let (outcome, session) ← session.runUnder regime fuel program
    return (outcome.mapError .ofEscape, session)

theorem executeUnder_usual (session : Session) (fuel : Nat) (source : Source) :
    session.executeUnder .usual fuel source = session.execute fuel source :=
  rfl

/-- What two executions have come to after so many steps. Both are under way, or both are over and the results are the
same but for line numbers. -/
inductive Alike (related : Streams → Streams → Prop) : Option (Except ProgramError Value × Session) →
    Option (Except ProgramError Value × Session) → Prop
  | unfinished : Alike related none none
  | ended {result other : Except ProgramError Value} {after twin : Session}
      (results : recast ProgramError.unlined (Value.relined fun _ => 0) result =
        recast ProgramError.unlined (Value.relined fun _ => 0) other) (sessions : after.Agree related twin) :
      Alike related (some (result, after)) (some (other, twin))

theorem Agree.execute {related : Streams → Streams → Prop} {regime : Regime} {one other : Session}
    {source padded : Source} (blind : regime.Blind related) (agree : one.Agree related other)
    (more : source.Padded padded) (fuel : Nat) :
    Alike related (one.executeUnder regime fuel source) (other.executeUnder regime fuel padded) := by
  have same := more.program
  unfold executeUnder
  dsimp only
  cases read : source.program.result with
  | error error =>
    cases readToo : padded.program.result with
    | error errorToo =>
      rw [read, readToo] at same
      exact .ended (congrArg Except.error (Except.error.inj same)) ⟨agree.arena, agree.sites, agree.streams⟩
    | ok twin =>
      rw [read, readToo] at same
      cases same
  | ok program =>
    cases readToo : padded.program.result with
    | error errorToo =>
      rw [read, readToo] at same
      cases same
    | ok twin =>
      rw [read, readToo] at same
      have begun : ((one.noteAll source.program.events).note (.programStarted source.name program.length)).Agree related
          ((other.noteAll padded.program.events).note (.programStarted padded.name twin.length)) :=
        ⟨agree.arena, agree.sites, agree.streams⟩
      dsimp only
      rcases begun.run blind (Except.ok.inj same) fuel with
        ⟨going, goingToo⟩ | ⟨outcome, outcomeToo, after, afterToo, ran, ranToo, outcomes, sessions⟩
      · rw [going, goingToo]
        exact .unfinished
      · rw [ran, ranToo]
        refine .ended ?_ sessions
        rw [Outcome.mapError_unlined, Outcome.mapError_unlined, outcomes]

/-- With a blank line more, wherever it is, a source is executed with the same result and the same effects: both
executions are under way after so many steps, or both are over, and then they differ in line numbers only. With `debug`
masked, they leave the same streams; as it is, they write the same but for the line numbers of procedures. -/
theorem execute_padded {source padded : Source} (more : source.Padded padded) (session : Session) (fuel : Nat) :
    Alike Eq (session.executeUnder .unlined fuel source) (session.executeUnder .unlined fuel padded) ∧
    (session.streams.output.room = none →
      Alike (Streams.Similar Text.Kin) (session.execute fuel source) (session.execute fuel padded)) := by
  refine ⟨?_, ?_⟩
  · exact Agree.execute Regime.unlined_blind ⟨rfl, rfl, rfl⟩ more fuel
  · intro unbounded
    rw [← executeUnder_usual, ← executeUnder_usual]
    exact Agree.execute Regime.usual_blind ⟨rfl, rfl, .same _, ⟨unbounded, unbounded⟩, rfl, rfl⟩ more fuel

set_option maxRecDepth 20000 in
/-- A blank line inside a procedure, which is then debugged: both executions end with it, on other lines. -/
theorem execute_padded_inside_procedure :
    ∃ (front blank back : String) (after twin : Session), front = "by f of n we mean\n" ∧ blank = "\u3000 " ∧
      back = "\tbreak\ndebug of the f" ∧
      (start (.ofInput []) .silent).execute 20 (.ofText "f" (front ++ back)) =
        some (.ok (.procedure (.closure ⟨"f", ["n"], [.breaks 2], 0, Arena.root⟩)), after) ∧
      (start (.ofInput []) .silent).execute 20 (.ofText "f" (front ++ (blank ++ "\n" ++ back))) =
        some (.ok (.procedure (.closure ⟨"f", ["n"], [.breaks 3], 0, Arena.root⟩)), twin) ∧
      after.streams.Similar Text.Kin twin.streams := by
  have more := Source.Padded.ofText "f" "\tbreak\ndebug of the f" (.inr ⟨"by f of n we mean", rfl⟩)
    (show Text.allBlank "\u3000 ".toList = true by decide) (by decide)
  have alike := (execute_padded more (start (.ofInput []) .silent) 20).2 rfl
  have read : (Source.ofText "f" ("by f of n we mean" ++ "\n" ++ "\tbreak\ndebug of the f")).program.result =
      .ok [.definition "f" ["n"] [.breaks 2] 0 1, .call (.identifier "debug" 3) [.identifier "f" 3] 3] := by
    cbv
  have readToo : (Source.ofText "f" ("by f of n we mean" ++ "\n" ++
        ("\u3000 " ++ "\n" ++ "\tbreak\ndebug of the f"))).program.result =
      .ok [.definition "f" ["n"] [.breaks 3] 0 1, .call (.identifier "debug" 4) [.identifier "f" 4] 4] := by
    cbv
  rw [execute, read, execute, readToo] at alike
  cases alike with
  | ended results sessions =>
    refine ⟨"by f of n we mean" ++ "\n", _, _, _, _, rfl, rfl, rfl, ?_, ?_, sessions.streams⟩
    · rw [execute, read]
      rfl
    · rw [execute, readToo]
      rfl

end Session

end Parlance
