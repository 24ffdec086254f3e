import Parlance.Log.Event

/-! A result together with the events that led to it. A failure keeps the events before it. -/
namespace Parlance

structure Traced (ε α : Type) where
  events : List Event
  result : Except ε α

namespace Traced

variable {ε α β : Type}

def fail (error : ε) : Traced ε α :=
  ⟨[], .error error⟩

def tell (events : List Event) : Traced ε Unit :=
  ⟨events, .ok ()⟩

def ofExcept (result : Except ε α) : Traced ε α :=
  ⟨[], result⟩

protected def bind (first : Traced ε α) (next : α → Traced ε β) : Traced ε β :=
  match first.result with
  | .error error => ⟨first.events, .error error⟩
  | .ok a =>
    let second := next a
    ⟨first.events ++ second.events, second.result⟩

protected def map (f : α → β) (first : Traced ε α) : Traced ε β :=
  ⟨first.events, first.result.map f⟩

instance : Monad (Traced ε) where
  pure a := ⟨[], .ok a⟩
  map := Traced.map
  bind := Traced.bind

@[simp] theorem result_pure (a : α) : (pure a : Traced ε α).result = .ok a := rfl

@[simp] theorem result_fail (error : ε) : (fail error : Traced ε α).result = .error error := rfl

@[simp] theorem result_tell (events : List Event) : (tell events : Traced ε Unit).result = .ok () := rfl

@[simp] theorem result_ofExcept (result : Except ε α) : (ofExcept result).result = result := rfl

@[simp] theorem result_map (f : α → β) (first : Traced ε α) :
    (f <$> first).result = first.result.map f := rfl

@[simp] theorem result_bind (first : Traced ε α) (next : α → Traced ε β) :
    (first >>= next).result = first.result.bind fun a => (next a).result := by
  show (Traced.bind first next).result = _
  unfold Traced.bind
  cases first.result <;> rfl

end Traced
end Parlance
