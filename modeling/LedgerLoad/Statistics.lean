import LedgerLoad.Sample

/-!
The figures of a finished run.
-/

set_option autoImplicit false

namespace LedgerLoad

/-- Latency figures cover the measured successes; counts, error rate and throughput cover every sample. -/
structure RunStatistics where
  totalRequests : Nat := 0
  successfulRequests : Nat := 0
  /-- Percent of the samples that failed. -/
  errorRate : Float := 0
  throughput : Float := 0
  duration : Span := Span.zero
  latencyP50 : Span := Span.zero
  latencyP90 : Span := Span.zero
  latencyP99 : Span := Span.zero
  latencyAvg : Span := Span.zero
  latencyMin : Span := Span.zero
  latencyMax : Span := Span.zero
  resources : Option ResourceStats := none
deriving Inhabited

/-- None if the counts contradict each other. -/
def RunStatistics.failedRequests (s : RunStatistics) : Nat := s.totalRequests - s.successfulRequests

end LedgerLoad
