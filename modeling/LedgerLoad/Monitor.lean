import LedgerLoad.Sample
import LedgerLoad.Time.Span

/-!
Periodic readings of this process while a run is in flight.

The sampler looks at its stop flag first and then reads, at once and after each interval. A read that yields nothing
is skipped; one that panics ends the sampler, and so does an interval of zero, before the first read. What was read
until then is kept.
-/

set_option autoImplicit false

namespace LedgerLoad

/-- One reading: percent of one core since the reading before, in single precision, and bytes of resident memory. -/
structure ProcessReading where
  cpuPercent : Float32
  rssBytes : Nat

inductive Probe where
  | reading (r : ProcessReading)
  | nothing
  | panic

structure Readings where
  cpu : List Float := []
  memoryMb : List Float := []
  memoryPeakMb : Float := 0

namespace Readings

def bytesPerMb : Float := 1048576

/-- The larger of two doubles; what is no number gives way. -/
def larger (a b : Float) : Float := if a.isNaN then b else if b.isNaN then a else if a < b then b else a

def push (r : Readings) (p : ProcessReading) : Readings :=
  let mb := p.rssBytes.toUInt64.toFloat / bytesPerMb
  { cpu := r.cpu ++ [p.cpuPercent.toFloat]
    memoryMb := r.memoryMb ++ [mb]
    memoryPeakMb := larger r.memoryPeakMb mb }

def mean (xs : List Float) : Float :=
  if xs.isEmpty then 0 else xs.foldl (· + ·) (-0.0) / xs.length.toUInt64.toFloat

def cpuMeasured (r : Readings) : List Float :=
  match r.cpu with
  | _ :: second :: rest => second :: rest
  | few => few

def stats (r : Readings) : ResourceStats where
  cpuAvgPercent := mean r.cpuMeasured
  memoryAvgMb := mean r.memoryMb
  memoryPeakMb := r.memoryPeakMb
  sampleCount := r.cpu.length

end Readings

structure Sampler where
  alive : Bool := true
  readings : Readings := {}

namespace Sampler

def tick (s : Sampler) (p : Probe) : Sampler :=
  if s.alive then
    match p with
    | .reading r => { s with readings := s.readings.push r }
    | .nothing => s
    | .panic => { s with alive := false }
  else s

end Sampler

def defaultMonitorInterval : Span := Span.ofMillis 100

end LedgerLoad
