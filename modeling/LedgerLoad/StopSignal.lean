/-!
Cooperative stop flags shared by a runner, its workers and outside callers.

A new signal founds a family, and a clone belongs to the family of the signal it was cloned from. A family has one
flag, which is set once and never cleared. A task that awaits a stop is done as soon as the flag of its family is
set, whether that came before or after the wait began.
-/

set_option autoImplicit false

namespace LedgerLoad

/-- Any number of signals, known by their place in the order in which they were made. -/
structure StopSignals where
  families : List Nat := [0]
  /-- The flag of each family, in the order in which the families were founded. -/
  flags : List Bool := [false]
  /-- The family that each waiting task awaits. -/
  waits : List Nat := []
deriving DecidableEq, Repr

namespace StopSignals

def family? (s : StopSignals) (i : Nat) : Option Nat := s.families[i]?

def flag (s : StopSignals) (family : Nat) : Bool := (s.flags[family]?).getD false

def found (s : StopSignals) : StopSignals × Nat :=
  ({ s with families := s.families ++ [s.flags.length], flags := s.flags ++ [false] }, s.families.length)

def clone (s : StopSignals) (i : Nat) : Option (StopSignals × Nat) :=
  (s.family? i).map fun f => ({ s with families := s.families ++ [f] }, s.families.length)

/-- Requests a stop; true for the first request in the family only. -/
def stop (s : StopSignals) (i : Nat) : Option (StopSignals × Bool) :=
  (s.family? i).map fun f => ({ s with flags := s.flags.set f true }, !s.flag f)

def isStopped (s : StopSignals) (i : Nat) : Option Bool := (s.family? i).map s.flag

def await (s : StopSignals) (i : Nat) : Option (StopSignals × Nat) :=
  (s.family? i).map fun f => ({ s with waits := s.waits ++ [f] }, s.waits.length)

def finished (s : StopSignals) : List Bool := s.waits.map s.flag

end StopSignals

end LedgerLoad
