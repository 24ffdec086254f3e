import Parlance.Node.Error
import Parlance.Traced

/-! What reading from a stream of tokens comes to: events, a result, and the tokens left, which are always the end of
those given. -/
namespace Parlance

structure Parsed (tokens : List Token) (α : Type) where
  events : List Event
  rest : List Token
  within : rest <:+ tokens
  result : Except GrammarError α

namespace Parsed

variable {tokens after : List Token} {α β : Type}

def done (a : α) : Parsed tokens α :=
  ⟨[], tokens, List.suffix_refl _, .ok a⟩

def fail (error : GrammarError) : Parsed tokens α :=
  ⟨[], tokens, List.suffix_refl _, .error error⟩

/-- A result for which no token is taken from the stream. -/
def ofTraced (traced : Traced GrammarError α) : Parsed tokens α :=
  ⟨traced.events, tokens, List.suffix_refl _, traced.result⟩

/-- What was read from a later point of the stream. -/
def widen (later : after <:+ tokens) (parsed : Parsed after α) : Parsed tokens α :=
  ⟨parsed.events, parsed.rest, parsed.within.trans later, parsed.result⟩

def tell (events : List Event) (parsed : Parsed tokens α) : Parsed tokens α :=
  ⟨events ++ parsed.events, parsed.rest, parsed.within, parsed.result⟩

def map (f : α → β) (parsed : Parsed tokens α) : Parsed tokens β :=
  ⟨parsed.events, parsed.rest, parsed.within, parsed.result.map f⟩

/-- Reads on from where the first part stopped, if it succeeded. -/
def andThen (first : Parsed tokens α)
    (next : (rest : List Token) → rest <:+ tokens → α → Parsed rest β) : Parsed tokens β :=
  match first.result with
  | .error error => ⟨first.events, first.rest, first.within, .error error⟩
  | .ok a => ((next first.rest first.within a).widen first.within).tell first.events

end Parsed
end Parlance
