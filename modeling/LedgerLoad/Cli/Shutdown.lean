import LedgerLoad.StopSignal

/-!
Signals from the terminal or from the system that end a run early, letting work in flight finish.
-/

set_option autoImplicit false

namespace LedgerLoad.Cli

inductive ShutdownSignal where
  | interrupt
  | terminate
deriving DecidableEq, Repr

/-- A task that waits for the first shutdown signal and then requests a stop. -/
structure ShutdownWatch where
  signals : StopSignals := {}
  handle : Nat := 0
  waiting : Bool := true
deriving DecidableEq, Repr

namespace ShutdownWatch

def receive (w : ShutdownWatch) (_ : ShutdownSignal) : ShutdownWatch :=
  if w.waiting then
    { w with waiting := false, signals := match w.signals.stop w.handle with
        | some (s, _) => s
        | none => w.signals }
  else w

def isStopped (w : ShutdownWatch) : Bool := (w.signals.isStopped w.handle).getD false

end ShutdownWatch

end LedgerLoad.Cli
