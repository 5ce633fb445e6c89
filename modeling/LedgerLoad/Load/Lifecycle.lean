/-!
The life of a runner.
-/

set_option autoImplicit false

namespace LedgerLoad

/-- A runner goes through these states in order, one step at a time. -/
inductive Lifecycle where
  | notStarted
  | running
  | stopping
  | stopped
deriving DecidableEq, Repr, Inhabited

namespace Lifecycle

def name : Lifecycle → String
  | .notStarted => "NotStarted"
  | .running => "Running"
  | .stopping => "Stopping"
  | .stopped => "Stopped"

def advance (s source target : Lifecycle) : Lifecycle := if s = source then target else s

end Lifecycle

end LedgerLoad
