import LedgerLoad.Load.World
import LedgerLoad.Monitor.Loop

/-!
A runner together with the monitors of the monitored calls made on it.

A monitored call starts its monitor, runs, and hands over: whatever the run came to, the monitor is stopped and its figures
are attached to the results. A monitor is a task of its own. It looks at the process when it is due, or later, and nothing
else of what happens depends on it.
-/

set_option autoImplicit false

namespace LedgerLoad.Load

structure Supervision where
  world : World
  monitors : Array (Option Monitor) := #[]

inductive Event where
  | run (config : WorkloadConfig) (interval : Option Nat)
  | look (k : Nat) (p : Probe)
  | handOver (k : Nat)
  | other (a : Action)

/-- Whether an action is neither a call of `run` nor the end of a monitored one. -/
def Action.plain : Action → Bool
  | .run _ _ | .attach _ _ => false
  | _ => true

namespace Supervision

def step (s : Supervision) : Event → Option Supervision
  | .run config interval => do
    let world ← s.world.step (.run config interval.isSome)
    return { world := world, monitors := s.monitors.push (interval.map fun p => Monitor.start p s.world.now) }
  | .look k p => do
    let m ← (← s.monitors[k]?)
    if m.listening && decide (m.due ≤ s.world.now) then
      some { s with monitors := s.monitors.set! k (some (m.look s.world.now p)) }
    else none
  | .handOver k => do
    let m ← (← s.monitors[k]?)
    let world ← s.world.step (.attach k m.figures)
    return { world := world, monitors := s.monitors.set! k (some m.stop) }
  | .other a => if a.plain then (s.world.step a).map fun world => { s with world := world } else none

def run (s : Supervision) : List Event → Option Supervision
  | [] => some s
  | e :: es => do (← s.step e).run es

def initial (accounts : List String) : Supervision := { world := World.initial accounts }

end Supervision

end LedgerLoad.Load
