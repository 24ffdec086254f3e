/-! Handles of scopes. -/
namespace Parlance

structure ScopeId where
  index : Nat
deriving DecidableEq, Repr

def ScopeId.describe (id : ScopeId) : String :=
  s!"#{id.index}"

end Parlance
