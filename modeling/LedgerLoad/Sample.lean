import LedgerLoad.Time.Span
import LedgerLoad.Time.Stamp

/-!
Outcomes of single units of work, and the resources used while they were collected.
-/

set_option autoImplicit false

namespace LedgerLoad

/-- The outcome of one unary call or one received event.

A success with no latency is unmeasured: the first event of a subscription has no predecessor to be timed
against. It counts as a request and never in the latency figures. -/
structure Sample where
  latency : Span
  success : Bool
  error : Option String
  timestamp : Stamp
deriving DecidableEq, Repr

namespace Sample

def succeeded (latency : Span) (timestamp : Stamp) : Sample := ⟨latency, true, none, timestamp⟩

def failed (latency : Span) (error : String) (timestamp : Stamp) : Sample := ⟨latency, false, some error, timestamp⟩

def unmeasured (timestamp : Stamp) : Sample := succeeded Span.zero timestamp

def hasLatency (s : Sample) : Bool := s.success && !s.latency.isZero

def latencyMillis (s : Sample) : Float := s.latency.toMillis

end Sample

structure ResourceStats where
  cpuAvgPercent : Float := 0
  memoryAvgMb : Float := 0
  memoryPeakMb : Float := 0
  sampleCount : Nat := 0
deriving Inhabited

end LedgerLoad
