import LedgerLoad.Error

/-!
A fixed pool of account identifiers from which workers draw.
-/

set_option autoImplicit false

namespace LedgerLoad

structure AccountPool where
  ids : List String
deriving DecidableEq, Repr

namespace AccountPool

def ofList (ids : List String) : Except RunnerError AccountPool :=
  if ids.isEmpty then .error .noAccounts else .ok ⟨ids⟩

def size (p : AccountPool) : Nat := p.ids.length

/-- The identifier that a random number selects. There is none in an empty pool, where drawing panics. -/
def draw (p : AccountPool) (random : Nat) : Option String := p.ids[random % p.size]?

end AccountPool

end LedgerLoad
