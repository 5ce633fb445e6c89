import LedgerLoad.Json.Codec
import LedgerLoad.Report

/-!
The JSON form of configurations, samples, figures and reports.

Lengths of time are numbers: seconds, or milliseconds where the name of the field says so. Timestamps are RFC 3339
text.
-/

set_option autoImplicit false

namespace LedgerLoad

namespace Span

/-- Nanoseconds of a number of seconds, cut to whole ones. Negative and infinite numbers and those from 2^64 on
are none. -/
def nanosOfSeconds (x : Float) : Option Nat :=
  let scaled := x * 1e9
  match Decimal.wholePart scaled with
  | some n => if n < limit then some n else none
  | none => none

def ofSeconds? (x : Float) : Option Span := (nanosOfSeconds x).bind ofNanos?

/-- The span of a number of milliseconds: its thousandth in seconds, cut to whole nanoseconds. -/
def ofMilliseconds? (x : Float) : Option Span := (nanosOfSeconds x).bind fun n => ofNanos? (n / 1000)

/-- Milliseconds as a double: the span is multiplied exactly, which can leave its range. -/
def toMilliseconds? (s : Span) : Option Float := (ofNanos? (s.nanos * 1000)).map toSeconds

end Span

namespace Json

def Codec.size : Codec Nat := Codec.nat 0 0xFFFFFFFFFFFFFFFF

def Codec.seconds : Codec Span := Codec.float.narrow Span.ofSeconds? fun s => some s.toSeconds

def Codec.milliseconds : Codec Span := Codec.float.narrow Span.ofMilliseconds? Span.toMilliseconds?

def Codec.stamp : Codec Stamp :=
  Codec.text.narrow (fun s => Stamp.parse s.toList) fun t => t.write.map String.ofList

def Codec.scenario : Codec Scenario := Codec.names Scenario.named Scenario.name

def Codec.protocol : Codec Protocol := Codec.names Protocol.named Protocol.name

def optional {α : Type} (name : String) (c : Codec α) : Field (Option α) := ⟨name, c.option, some none⟩

end Json

open Json (Codec Field Fields optional)

def WorkloadConfig.codec : Codec WorkloadConfig :=
  Fields.codec
    (.cons ⟨"scenario", Codec.scenario, none⟩ <|
     .cons ⟨"concurrency", Codec.nat 1 0xFFFFFFFFFFFFFFFF, none⟩ <|
     .cons ⟨"duration", Codec.seconds, none⟩ <|
     .cons ⟨"rate", Codec.nat 0 0xFFFFFFFF, none⟩ .nil)
    (fun (scenario, concurrency, duration, rate, ()) => ⟨scenario, concurrency, duration, rate⟩)
    (fun c => (c.scenario, c.concurrency, c.duration, c.rate, ()))

def Sample.codec : Codec Sample :=
  Fields.codec
    (.cons ⟨"latency_ms", Codec.milliseconds, none⟩ <|
     .cons ⟨"success", Codec.bool, none⟩ <|
     .cons (optional "error" Codec.text) <|
     .cons ⟨"timestamp", Codec.stamp, none⟩ .nil)
    (fun (latency, success, error, timestamp, ()) => ⟨latency, success, error, timestamp⟩)
    (fun s => (s.latency, s.success, s.error, s.timestamp, ()))

def ResourceStats.codec : Codec ResourceStats :=
  Fields.codec
    (.cons ⟨"cpu_avg_percent", Codec.float, none⟩ <|
     .cons ⟨"memory_avg_mb", Codec.float, none⟩ <|
     .cons ⟨"memory_peak_mb", Codec.float, none⟩ <|
     .cons ⟨"sample_count", Codec.size, none⟩ .nil)
    (fun (cpu, average, peak, count, ()) => ⟨cpu, average, peak, count⟩)
    (fun r => (r.cpuAvgPercent, r.memoryAvgMb, r.memoryPeakMb, r.sampleCount, ()))

def RunStatistics.codec : Codec RunStatistics :=
  Fields.codec
    (.cons ⟨"total_requests", Codec.size, none⟩ <|
     .cons ⟨"successful_requests", Codec.size, none⟩ <|
     .cons ⟨"error_rate", Codec.float, none⟩ <|
     .cons ⟨"throughput", Codec.float, none⟩ <|
     .cons ⟨"duration_sec", Codec.seconds, none⟩ <|
     .cons ⟨"p50_latency_ms", Codec.milliseconds, none⟩ <|
     .cons ⟨"p90_latency_ms", Codec.milliseconds, none⟩ <|
     .cons ⟨"p99_latency_ms", Codec.milliseconds, none⟩ <|
     .cons ⟨"avg_latency_ms", Codec.milliseconds, none⟩ <|
     .cons ⟨"min_latency_ms", Codec.milliseconds, none⟩ <|
     .cons ⟨"max_latency_ms", Codec.milliseconds, none⟩ <|
     .cons (optional "resources" ResourceStats.codec) .nil)
    (fun (total, successful, errorRate, throughput, duration, p50, p90, p99, average, least, most, resources, ()) =>
      ⟨total, successful, errorRate, throughput, duration, p50, p90, p99, average, least, most, resources⟩)
    (fun s => (s.totalRequests, s.successfulRequests, s.errorRate, s.throughput, s.duration, s.latencyP50,
      s.latencyP90, s.latencyP99, s.latencyAvg, s.latencyMin, s.latencyMax, s.resources, ()))

def RunMetadata.codec : Codec RunMetadata :=
  Fields.codec
    (.cons ⟨"scenario", Codec.scenario, none⟩ <|
     .cons ⟨"protocol", Codec.protocol, none⟩ <|
     .cons ⟨"client", Codec.text, none⟩ <|
     .cons ⟨"concurrency", Codec.size, none⟩ <|
     .cons ⟨"duration_sec", Codec.size, none⟩ <|
     .cons (optional "rate_limit" (Codec.nat 0 0xFFFFFFFF)) <|
     .cons (optional "cpu_usage_avg" Codec.float) <|
     .cons (optional "memory_mb_avg" Codec.float) <|
     .cons (optional "memory_mb_peak" Codec.float) .nil)
    (fun (scenario, protocol, client, concurrency, duration, rate, cpu, average, peak, ()) =>
      ⟨scenario, protocol, client, concurrency, duration, rate, cpu, average, peak⟩)
    (fun m => (m.scenario, m.protocol, m.client, m.concurrency, m.durationSec, m.rateLimit, m.cpuUsageAvg,
      m.memoryMbAvg, m.memoryMbPeak, ()))

def RunReport.codec : Codec RunReport :=
  Fields.codec
    (.cons ⟨"metadata", RunMetadata.codec, none⟩ <|
     .cons ⟨"statistics", RunStatistics.codec, none⟩ <|
     .cons ⟨"samples", Sample.codec.list, none⟩ .nil)
    (fun (metadata, statistics, samples, ()) => ⟨metadata, statistics, samples⟩)
    (fun r => (r.metadata, r.statistics, r.samples, ()))

end LedgerLoad
