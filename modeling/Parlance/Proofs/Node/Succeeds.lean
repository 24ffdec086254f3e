import Parlance.Node.Parsed

/-! Readings that come to a result. Where `Ensures` says what any result is like, this says that there is one. -/
namespace Parlance

namespace Traced

variable {ε α β : Type} {good : α → Prop}

def Succeeds (traced : Traced ε α) (good : α → Prop) : Prop :=
  ∃ a, traced.result = .ok a ∧ good a

theorem succeeds_pure {a : α} (given : good a) : (pure a : Traced ε α).Succeeds good :=
  ⟨a, rfl, given⟩

theorem succeeds_tell (events : List Event) : (tell events : Traced ε Unit).Succeeds fun _ => True :=
  ⟨(), rfl, trivial⟩

theorem succeeds_bind {first : Traced ε α} {next : α → Traced ε β} {better : β → Prop} (before : first.Succeeds good)
    (after : ∀ a, good a → (next a).Succeeds better) : (first >>= next).Succeeds better := by
  obtain ⟨a, reached, given⟩ := before
  obtain ⟨b, further, last⟩ := after a given
  exact ⟨b, by rw [result_bind, reached]; exact further, last⟩

end Traced

namespace Parsed

variable {tokens after rest : List Token} {α β : Type} {good : α → Prop}

/-- There is a result, and these tokens are left after it. -/
def Succeeds (parsed : Parsed tokens α) (good : α → Prop) (rest : List Token) : Prop :=
  ∃ a, parsed.result = .ok a ∧ good a ∧ parsed.rest = rest

theorem succeeds_done {a : α} (given : good a) : (done a : Parsed tokens α).Succeeds good tokens :=
  ⟨a, rfl, given, rfl⟩

theorem succeeds_ofTraced {traced : Traced GrammarError α} (given : traced.Succeeds good) :
    (ofTraced traced : Parsed tokens α).Succeeds good tokens := by
  obtain ⟨a, reached, given⟩ := given
  exact ⟨a, reached, given, rfl⟩

theorem succeeds_widen {later : after <:+ tokens} {parsed : Parsed after α} (given : parsed.Succeeds good rest) :
    (parsed.widen later).Succeeds good rest :=
  given

theorem succeeds_tell {events : List Event} {parsed : Parsed tokens α} (given : parsed.Succeeds good rest) :
    (parsed.tell events).Succeeds good rest :=
  given

theorem succeeds_map {f : α → β} {parsed : Parsed tokens α} {better : β → Prop}
    (given : parsed.Succeeds (fun a => better (f a)) rest) : (parsed.map f).Succeeds better rest := by
  obtain ⟨a, reached, given, left⟩ := given
  exact ⟨f a, by rw [map, reached]; rfl, given, left⟩

theorem succeeds_andThen {first : Parsed tokens α}
    {next : (rest : List Token) → rest <:+ tokens → α → Parsed rest β} {better : β → Prop} {middle : List Token}
    (before : first.Succeeds good middle)
    (following : ∀ a within, good a → (next middle within a).Succeeds better rest) :
    (first.andThen next).Succeeds better rest := by
  obtain ⟨a, reached, given, rfl⟩ := before
  unfold andThen
  rw [reached]
  exact succeeds_tell (succeeds_widen (following a first.within given))

end Parsed
end Parlance
