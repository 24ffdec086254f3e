import Parlance.Node.Parsed

/-! Readers that meet a contract: what holds of a result and of the tokens left after it, and what of an error. -/
namespace Parlance

namespace Traced

variable {ε α β : Type} {good : α → Prop} {bad : ε → Prop}

structure Meets (traced : Traced ε α) (good : α → Prop) (bad : ε → Prop) : Prop where
  ok : ∀ a, traced.result = .ok a → good a
  error : ∀ e, traced.result = .error e → bad e

theorem meets_pure {a : α} (given : good a) : (pure a : Traced ε α).Meets good bad := by
  constructor
  · rintro b ⟨⟩
    exact given
  · rintro e ⟨⟩

theorem meets_fail {error : ε} (given : bad error) : (fail error : Traced ε α).Meets good bad := by
  constructor
  · rintro a ⟨⟩
  · rintro e ⟨⟩
    exact given

theorem meets_tell (events : List Event) : (tell events : Traced ε Unit).Meets (fun _ => True) bad := by
  constructor
  · exact fun _ _ => trivial
  · rintro e ⟨⟩

theorem meets_ofExcept {result : Except ε α} (ok : ∀ a, result = .ok a → good a)
    (error : ∀ e, result = .error e → bad e) : (ofExcept result).Meets good bad :=
  ⟨ok, error⟩

theorem meets_bind {first : Traced ε α} {next : α → Traced ε β} {middle : α → Prop} {good : β → Prop}
    (before : first.Meets middle bad) (after : ∀ a, middle a → (next a).Meets good bad) :
    (first >>= next).Meets good bad := by
  cases reached : first.result with
  | error error =>
    have same : (first >>= next).result = .error error := by simp [reached, Except.bind]
    constructor
    · intro b ok
      cases same.symm.trans ok
    · intro e failed
      cases same.symm.trans failed
      exact before.error error reached
  | ok a =>
    have same : (first >>= next).result = (next a).result := by simp [reached, Except.bind]
    have further := after a (before.ok a reached)
    exact ⟨fun b ok => further.ok b (same ▸ ok), fun e failed => further.error e (same ▸ failed)⟩

theorem Meets.weaken {traced : Traced ε α} {better : α → Prop} {worse : ε → Prop} (given : traced.Meets good bad)
    (ok : ∀ a, good a → better a) (error : ∀ e, bad e → worse e) : traced.Meets better worse :=
  ⟨fun a read => ok a (given.ok a read), fun e failed => error e (given.error e failed)⟩

theorem Meets.weaken_error {traced : Traced ε α} {worse : ε → Prop} (given : traced.Meets good bad)
    (error : ∀ e, bad e → worse e) : traced.Meets good worse :=
  given.weaken (fun _ good => good) error

end Traced

namespace Parsed

variable {tokens after : List Token} {α β : Type} {good : α → List Token → Prop} {bad : GrammarError → Prop}

structure Meets (parsed : Parsed tokens α) (good : α → List Token → Prop) (bad : GrammarError → Prop) : Prop where
  ok : ∀ a, parsed.result = .ok a → good a parsed.rest
  error : ∀ e, parsed.result = .error e → bad e

theorem meets_done {a : α} (given : good a tokens) : (done a : Parsed tokens α).Meets good bad := by
  constructor
  · rintro b ⟨⟩
    exact given
  · rintro e ⟨⟩

theorem meets_fail {error : GrammarError} (given : bad error) : (fail error : Parsed tokens α).Meets good bad := by
  constructor
  · rintro a ⟨⟩
  · rintro e ⟨⟩
    exact given

theorem meets_ofTraced {traced : Traced GrammarError α} (given : traced.Meets (good · tokens) bad) :
    (ofTraced traced : Parsed tokens α).Meets good bad :=
  ⟨given.ok, given.error⟩

theorem meets_widen {later : after <:+ tokens} {parsed : Parsed after α} (given : parsed.Meets good bad) :
    (parsed.widen later).Meets good bad :=
  ⟨given.ok, given.error⟩

theorem meets_tell {events : List Event} {parsed : Parsed tokens α} (given : parsed.Meets good bad) :
    (parsed.tell events).Meets good bad :=
  ⟨given.ok, given.error⟩

theorem meets_map {f : α → β} {parsed : Parsed tokens α} {good : β → List Token → Prop}
    (given : parsed.Meets (fun a => good (f a)) bad) : (parsed.map f).Meets good bad := by
  cases reached : parsed.result with
  | error error =>
    have same : (parsed.map f).result = .error error := by simp [map, reached, Except.map]
    constructor
    · intro b ok
      cases same.symm.trans ok
    · intro e failed
      cases same.symm.trans failed
      exact given.error error reached
  | ok a =>
    have same : (parsed.map f).result = .ok (f a) := by simp [map, reached, Except.map]
    constructor
    · intro b ok
      cases same.symm.trans ok
      exact given.ok a reached
    · intro e failed
      cases same.symm.trans failed

theorem meets_andThen {first : Parsed tokens α}
    {next : (rest : List Token) → rest <:+ tokens → α → Parsed rest β} {middle : α → List Token → Prop}
    {good : β → List Token → Prop} (before : first.Meets middle bad)
    (after : ∀ a rest within, middle a rest → (next rest within a).Meets good bad) :
    (first.andThen next).Meets good bad := by
  unfold andThen
  split
  · rename_i error reached
    constructor
    · rintro b ⟨⟩
    · rintro e ⟨⟩
      exact before.error error reached
  · rename_i a reached
    exact meets_tell (meets_widen (after a first.rest first.within (before.ok a reached)))

theorem meets_ofTraced_andThen {traced : Traced GrammarError α}
    {next : (rest : List Token) → rest <:+ tokens → α → Parsed rest β} {middle : α → Prop}
    {good : β → List Token → Prop} (before : traced.Meets middle bad)
    (after : ∀ a, middle a → (next tokens (List.suffix_refl _) a).Meets good bad) :
    ((ofTraced traced).andThen next).Meets good bad := by
  have first : (ofTraced traced : Parsed tokens α).Meets (fun a rest => middle a ∧ rest = tokens) bad :=
    meets_ofTraced (before.weaken (fun _ given => ⟨given, rfl⟩) fun _ bad => bad)
  refine meets_andThen first ?_
  rintro a rest within ⟨given, rfl⟩
  exact after a given

theorem Meets.weaken {parsed : Parsed tokens α} {better : α → List Token → Prop} {worse : GrammarError → Prop}
    (given : parsed.Meets good bad) (ok : ∀ a rest, good a rest → better a rest) (error : ∀ e, bad e → worse e) :
    parsed.Meets better worse :=
  ⟨fun a read => ok a _ (given.ok a read), fun e failed => error e (given.error e failed)⟩

theorem Meets.weaken_ok {parsed : Parsed tokens α} {better : α → List Token → Prop} (given : parsed.Meets good bad)
    (ok : ∀ a rest, good a rest → better a rest) : parsed.Meets better bad :=
  given.weaken ok fun _ bad => bad

theorem Meets.weaken_error {parsed : Parsed tokens α} {worse : GrammarError → Prop} (given : parsed.Meets good bad)
    (error : ∀ e, bad e → worse e) : parsed.Meets good worse :=
  given.weaken (fun _ _ good => good) error

end Parsed
end Parlance
