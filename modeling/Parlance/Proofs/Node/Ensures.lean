import Parlance.Node.Parsed

/-! Properties of all that reading can result in, and how they pass through the ways in which readers are put together. -/
namespace Parlance

namespace Traced

variable {ε α β : Type}

/-- Any result has the property. -/
def Ensures (traced : Traced ε α) (property : α → Prop) : Prop :=
  ∀ a, traced.result = .ok a → property a

theorem ensures_fail (error : ε) (property : α → Prop) : (fail error : Traced ε α).Ensures property := by
  rintro a ⟨⟩

theorem ensures_pure {property : α → Prop} {a : α} (given : property a) : (pure a : Traced ε α).Ensures property := by
  rintro b ⟨⟩
  exact given

theorem ensures_ofExcept {property : α → Prop} {result : Except ε α} (given : ∀ a, result = .ok a → property a) :
    (ofExcept result).Ensures property :=
  given

theorem ensures_bind {first : Traced ε α} {next : α → Traced ε β} {middle : α → Prop} {property : β → Prop}
    (before : first.Ensures middle) (after : ∀ a, middle a → (next a).Ensures property) :
    (first >>= next).Ensures property := by
  intro b ok
  rw [result_bind] at ok
  cases result : first.result with
  | error error =>
    rw [result] at ok
    cases ok
  | ok a =>
    rw [result] at ok
    exact after a (before a result) b ok

theorem ensures_map {first : Traced ε α} {f : α → β} {property : β → Prop}
    (given : first.Ensures fun a => property (f a)) : (f <$> first).Ensures property := by
  intro b ok
  rw [result_map] at ok
  cases result : first.result with
  | error error =>
    rw [result] at ok
    cases ok
  | ok a =>
    rw [result] at ok
    cases ok
    exact given a result

theorem ensures_tell (events : List Event) : (tell events : Traced ε Unit).Ensures fun _ => True :=
  fun _ _ => trivial

end Traced

namespace Parsed

variable {tokens after : List Token} {α β : Type} {property : α → Prop}

def Ensures (parsed : Parsed tokens α) (property : α → Prop) : Prop :=
  ∀ a, parsed.result = .ok a → property a

theorem ensures_true (parsed : Parsed tokens α) : parsed.Ensures fun _ => True :=
  fun _ _ => trivial

theorem ensures_done {a : α} (given : property a) : (done a : Parsed tokens α).Ensures property := by
  rintro b ⟨⟩
  exact given

theorem ensures_fail (error : GrammarError) : (fail error : Parsed tokens α).Ensures property := by
  rintro a ⟨⟩

theorem ensures_ofTraced {traced : Traced GrammarError α} (given : traced.Ensures property) :
    (ofTraced traced : Parsed tokens α).Ensures property :=
  given

theorem ensures_widen {later : after <:+ tokens} {parsed : Parsed after α} (given : parsed.Ensures property) :
    (parsed.widen later).Ensures property :=
  given

theorem ensures_tell {events : List Event} {parsed : Parsed tokens α} (given : parsed.Ensures property) :
    (parsed.tell events).Ensures property :=
  given

theorem ensures_map {f : α → β} {parsed : Parsed tokens α} {image : β → Prop}
    (given : parsed.Ensures fun a => image (f a)) : (parsed.map f).Ensures image := by
  have traced : (⟨parsed.events, parsed.result⟩ : Traced GrammarError α).Ensures fun a => image (f a) := given
  exact Traced.ensures_map traced

theorem ensures_andThen {first : Parsed tokens α}
    {next : (rest : List Token) → rest <:+ tokens → α → Parsed rest β} {image : β → Prop}
    (before : first.Ensures property)
    (after : ∀ rest within a, property a → (next rest within a).Ensures image) :
    (first.andThen next).Ensures image := by
  intro b ok
  unfold andThen at ok
  split at ok
  · cases ok
  · rename_i a result
    exact after first.rest first.within a (before a result) b ok

end Parsed
end Parlance
