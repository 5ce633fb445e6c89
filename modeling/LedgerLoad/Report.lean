import LedgerLoad.Config
import LedgerLoad.Statistics
import LedgerLoad.Time.Human
import LedgerLoad.Decimal.Places

/-!
What a run leaves behind: its description, its figures and every sample, and the summary shown to a person.
-/

set_option autoImplicit false

namespace LedgerLoad

structure RunMetadata where
  scenario : Scenario
  protocol : Protocol
  client : String
  concurrency : Nat
  durationSec : Nat
  rateLimit : Option Nat
  cpuUsageAvg : Option Float
  memoryMbAvg : Option Float
  memoryMbPeak : Option Float

/-- The label under which this client's runs are stored. -/
def Protocol.clientLabel (p : Protocol) : String := "rust-" ++ p.name

def RunMetadata.describe (config : WorkloadConfig) (protocol : Protocol) (measured : Span)
    (resources : Option ResourceStats) : RunMetadata where
  scenario := config.scenario
  protocol := protocol
  client := protocol.clientLabel
  concurrency := config.concurrency
  durationSec := measured.secs
  rateLimit := config.rateLimit
  cpuUsageAvg := resources.map (·.cpuAvgPercent)
  memoryMbAvg := resources.map (·.memoryAvgMb)
  memoryMbPeak := resources.map (·.memoryPeakMb)

structure RunReport where
  metadata : RunMetadata
  statistics : RunStatistics
  samples : List Sample

def latencyLine (label : String) (latency : Span) : String :=
  "  " ++ label ++ ":  " ++ Decimal.fixed 2 latency.toMillis ++ "ms"

def resourceLines : Option ResourceStats → List String
  | none => []
  | some r => [
      "Resources:",
      "  CPU avg:   " ++ Decimal.fixed 1 r.cpuAvgPercent ++ "%",
      "  Mem avg:   " ++ Decimal.fixed 1 r.memoryAvgMb ++ " MB",
      "  Mem peak:  " ++ Decimal.fixed 1 r.memoryPeakMb ++ " MB"]

def RunReport.summaryLines (r : RunReport) : List String :=
  let s := r.statistics
  [ "Benchmark: " ++ r.metadata.scenario.name ++ " / " ++ r.metadata.protocol.name,
    "Duration: " ++ s.duration.human ++ " | Concurrency: " ++ toString r.metadata.concurrency,
    String.ofList (List.replicate 33 '-'),
    "Requests:    " ++ toString s.totalRequests,
    "Throughput:  " ++ Decimal.fixed 2 s.throughput ++ " req/s",
    "Latency:",
    latencyLine "p50" s.latencyP50,
    latencyLine "p90" s.latencyP90,
    latencyLine "p99" s.latencyP99,
    latencyLine "avg" s.latencyAvg,
    latencyLine "min" s.latencyMin,
    latencyLine "max" s.latencyMax,
    "Errors:      " ++ toString s.failedRequests ++ " (" ++ Decimal.fixed 2 s.errorRate ++ "%)" ] ++
  resourceLines s.resources

def RunReport.summary (r : RunReport) : String := String.join (r.summaryLines.map (· ++ "\n"))

end LedgerLoad
