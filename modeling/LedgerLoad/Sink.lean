import LedgerLoad.Report

/-!
The collection of every sample of one run, and the figures drawn from it.

The samples, the two ends of the measured window and the resource figures are guarded apart: each operation here
that reads or writes one of the three is a single step. A report is drawn in two looks at the samples, one for
the figures and one for the list.
-/

set_option autoImplicit false

namespace LedgerLoad

/-- The measured window: the instants at which workers were started and at which the last was gone. -/
structure Window where
  start : Option Nat := none
  finish : Option Nat := none
deriving DecidableEq, Repr

/-- Zero until both ends are set, and if they are swapped. -/
def Window.duration (w : Window) : Span :=
  match w.start, w.finish with
  | some s, some f => Span.between s f
  | _, _ => Span.zero

structure Metrics where
  successes : Nat := 0
  errors : Nat := 0
  latencies : Array Nat := #[]
deriving DecidableEq, Repr

def Metrics.record (m : Metrics) (s : Sample) : Metrics :=
  let m := if s.success then { m with successes := m.successes + 1 } else { m with errors := m.errors + 1 }
  if s.hasLatency then { m with latencies := m.latencies.push s.latency.nanos } else m

structure Sink where
  samples : Array Sample := #[]
  window : Window := {}
  resources : Option ResourceStats := none
  metrics : Metrics := {}
deriving Inhabited

/-! ### Figures of a list of samples -/

namespace Figures

def latencies (samples : List Sample) : List Span :=
  ((samples.filter Sample.hasLatency).map (·.latency)).mergeSort fun a b => a ≤ b

/-- The place of a percentile among `n` values in order: `n * p / 100` in doubles, cut to a whole number and to
the last place. What is negative or no number counts as zero. -/
def rank (n : Nat) (p : Float) : Nat :=
  min (n.toUInt64.toFloat * p / 100).toUInt64.toNat (n - 1)

/-- Nearest-rank percentile of values in ascending order, zero if there are none. -/
def percentile (sorted : List Span) (p : Float) : Span :=
  (sorted[rank sorted.length p]?).getD Span.zero

def totalNanos (spans : List Span) : Nat := spans.foldr (fun s n => s.nanos + n) 0

/-- The exact mean in whole nanoseconds, at most 2^64 - 1 of them. -/
def average (latencies : List Span) : Span :=
  if latencies.isEmpty then Span.zero
  else Span.ofNanos (min (totalNanos latencies / latencies.length) 0xFFFFFFFFFFFFFFFF)

def least (sorted : List Span) : Span := sorted.head?.getD Span.zero

def most (sorted : List Span) : Span := sorted.getLast?.getD Span.zero

def errorRate (samples : List Sample) : Float :=
  if samples.isEmpty then 0
  else
    (samples.countP fun s => !s.success).toUInt64.toFloat / samples.length.toUInt64.toFloat * 100

def throughput (total : Nat) (seconds : Float) : Float :=
  if seconds == 0 then 0 else total.toUInt64.toFloat / seconds

def statistics (samples : List Sample) (window : Window) (resources : Option ResourceStats) : RunStatistics :=
  let sorted := latencies samples
  let duration := window.duration
  { totalRequests := samples.length
    successfulRequests := samples.countP (·.success)
    errorRate := errorRate samples
    throughput := throughput samples.length duration.toSeconds
    duration := duration
    latencyP50 := percentile sorted 50
    latencyP90 := percentile sorted 90
    latencyP99 := percentile sorted 99
    latencyAvg := average sorted
    latencyMin := least sorted
    latencyMax := most sorted
    resources := resources }

end Figures

namespace Sink

def add (s : Sink) (x : Sample) : Sink := { s with samples := s.samples.push x, metrics := s.metrics.record x }

def setStart (s : Sink) (at_ : Nat) : Sink := { s with window := { s.window with start := some at_ } }

def setEnd (s : Sink) (at_ : Nat) : Sink := { s with window := { s.window with finish := some at_ } }

def setResources (s : Sink) (r : ResourceStats) : Sink := { s with resources := some r }

def totalRequests (s : Sink) : Nat := s.samples.size

def successfulRequests (s : Sink) : Nat := s.samples.toList.countP (·.success)

def errorRate (s : Sink) : Float := Figures.errorRate s.samples.toList

def duration (s : Sink) : Span := s.window.duration

def durationSeconds (s : Sink) : Float := s.duration.toSeconds

def throughput (s : Sink) : Float := Figures.throughput s.samples.size s.durationSeconds

def latencies (s : Sink) : List Span := Figures.latencies s.samples.toList

def percentile (s : Sink) (p : Float) : Span := Figures.percentile s.latencies p

def avgLatency (s : Sink) : Span := Figures.average s.latencies

def minLatency (s : Sink) : Span := Figures.least s.latencies

def maxLatency (s : Sink) : Span := Figures.most s.latencies

def statistics (s : Sink) : RunStatistics := Figures.statistics s.samples.toList s.window s.resources

/-- A report whose figures come from one look at the sink and whose samples from a later one. -/
def reportAcross (early late : Sink) (config : WorkloadConfig) (protocol : Protocol) : RunReport :=
  let statistics := early.statistics
  { metadata := RunMetadata.describe config protocol statistics.duration statistics.resources
    statistics := statistics
    samples := late.samples.toList }

def report (s : Sink) (config : WorkloadConfig) (protocol : Protocol) : RunReport :=
  s.reportAcross s config protocol

end Sink

end LedgerLoad
