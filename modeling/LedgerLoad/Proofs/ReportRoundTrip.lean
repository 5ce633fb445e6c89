import LedgerLoad.Report.Json
import LedgerLoad.Proofs.JsonParts
import LedgerLoad.Proofs.StampTexts

/-!
An exported report is read back.

Doubles and lengths of time go through decimal text, and of them it is only supposed that the text of each is read as some
value again. All else comes back as it was: counts, texts, names, points in time, and the samples in their order.
-/

set_option autoImplicit false

namespace LedgerLoad

open Json (Codec Fields floatText readFloat)

/-- A double is written as a number that is read back, to one of a kind. -/
def ReadsAs (p : Float → Bool) (x : Float) : Prop := ∃ y, readFloat (floatText x) = .ok (y, []) ∧ p y = true

instance (p : Float → Bool) : DecidablePred (ReadsAs p) := fun x =>
  match h : readFloat (floatText x) with
  | .ok (y, []) => decidable_of_iff (p y = true) ⟨fun kind => ⟨y, h, kind⟩, fun ⟨_, read, kind⟩ => by
      rw [h] at read
      cases read
      exact kind⟩
  | .ok (_, _ :: _) => .isFalse fun ⟨_, read, _⟩ => by
      rw [h] at read
      cases read
  | .error _ => .isFalse fun ⟨_, read, _⟩ => by
      rw [h] at read
      cases read

namespace Span

def Moderate (d : Span) : Prop := d.nanos < 1125899906842624 * 1000000000

instance : DecidablePred Moderate := fun d => inferInstanceAs (Decidable (d.nanos < 1125899906842624 * 1000000000))

/-- The number of seconds is read back as some length of time, and so is the number of milliseconds. -/
def ReadsBack (d : Span) : Prop :=
  ReadsAs (fun y => (ofSeconds? y).isSome) d.toSeconds ∧
    ∀ x ∈ d.toMilliseconds?, ReadsAs (fun y => (ofMilliseconds? y).isSome) x

instance : DecidablePred ReadsBack := fun d =>
  inferInstanceAs (Decidable (ReadsAs (fun y => (ofSeconds? y).isSome) d.toSeconds ∧
    ∀ x ∈ d.toMilliseconds?, ReadsAs (fun y => (ofMilliseconds? y).isSome) x))

theorem toMilliseconds?_of_moderate {d : Span} (h : d.Moderate) : ∃ x, d.toMilliseconds? = some x := by
  have range : d.nanos * 1000 < limit := by
    unfold Moderate at h
    have e : limit = 18446744073709551616000000000 := rfl
    omega
  simp [toMilliseconds?, ofNanos?, range]

end Span

namespace RunReport

def doubles (r : RunReport) : List Float :=
  r.metadata.cpuUsageAvg.toList ++ r.metadata.memoryMbAvg.toList ++ r.metadata.memoryMbPeak.toList ++
    [r.statistics.errorRate, r.statistics.throughput] ++
    r.statistics.resources.toList.flatMap fun x => [x.cpuAvgPercent, x.memoryAvgMb, x.memoryPeakMb]

def spans (r : RunReport) : List Span :=
  [r.statistics.duration, r.statistics.latencyP50, r.statistics.latencyP90, r.statistics.latencyP99,
    r.statistics.latencyAvg, r.statistics.latencyMin, r.statistics.latencyMax] ++ r.samples.map Sample.latency

/-- A report whose counts have the sizes of their types, with finite doubles, moderate lengths of time, and samples taken
at points in UTC in the years 0 to 9999. -/
structure Exportable (r : RunReport) : Prop where
  concurrency : r.metadata.concurrency ≤ 0xFFFFFFFFFFFFFFFF
  durationSec : r.metadata.durationSec ≤ 0xFFFFFFFFFFFFFFFF
  rateLimit : ∀ n ∈ r.metadata.rateLimit, n ≤ 0xFFFFFFFF
  totalRequests : r.statistics.totalRequests ≤ 0xFFFFFFFFFFFFFFFF
  successfulRequests : r.statistics.successfulRequests ≤ 0xFFFFFFFFFFFFFFFF
  sampleCount : ∀ x ∈ r.statistics.resources, x.sampleCount ≤ 0xFFFFFFFFFFFFFFFF
  doubles : ∀ x ∈ r.doubles, x.isFinite = true
  spans : ∀ d ∈ r.spans, d.Moderate
  stamps : ∀ s ∈ r.samples, s.timestamp.Plain

/-- Two reports that differ in doubles and lengths of time at most. -/
structure Alike (r r' : RunReport) : Prop where
  scenario : r'.metadata.scenario = r.metadata.scenario
  protocol : r'.metadata.protocol = r.metadata.protocol
  client : r'.metadata.client = r.metadata.client
  concurrency : r'.metadata.concurrency = r.metadata.concurrency
  durationSec : r'.metadata.durationSec = r.metadata.durationSec
  rateLimit : r'.metadata.rateLimit = r.metadata.rateLimit
  cpuUsageAvg : r'.metadata.cpuUsageAvg.isSome = r.metadata.cpuUsageAvg.isSome
  memoryMbAvg : r'.metadata.memoryMbAvg.isSome = r.metadata.memoryMbAvg.isSome
  memoryMbPeak : r'.metadata.memoryMbPeak.isSome = r.metadata.memoryMbPeak.isSome
  totalRequests : r'.statistics.totalRequests = r.statistics.totalRequests
  successfulRequests : r'.statistics.successfulRequests = r.statistics.successfulRequests
  resources : r'.statistics.resources.map ResourceStats.sampleCount = r.statistics.resources.map ResourceStats.sampleCount
  samples : r'.samples.map (fun s => (s.success, s.error, s.timestamp)) =
    r.samples.map fun s => (s.success, s.error, s.timestamp)

end RunReport

namespace Json

variable {α β γ : Type} {c : Codec α} {d : Codec β}

theorem Codec.gives_option {o : Option α} {f : α → γ} {g : β → γ} (h : ∀ a ∈ o, ∃ b, c.Gives d a b ∧ g b = f a)
    (solid : Solid d.read) : ∃ o', c.option.Gives d.option o o' ∧ o'.map g = o.map f := by
  cases o with
  | none => exact ⟨none, gives_none c d, rfl⟩
  | some a =>
    obtain ⟨b, given, same⟩ := h a rfl
    exact ⟨some b, gives_some given solid, congrArg some same⟩

theorem Codec.gives_same_option {o : Option α} {c : Codec α} (h : ∀ a ∈ o, c.Gives c a a) (solid : Solid c.read) :
    c.option.Gives c.option o o := by
  cases o with
  | none => exact gives_none c c
  | some a => exact gives_some (h a rfl) solid

theorem Codec.gives_items {xs : List α} {f : α → γ} {g : β → γ} (h : ∀ x ∈ xs, ∃ y, c.Gives d x y ∧ g y = f x)
    (solid : Solid d.read) : ∃ ys, c.list.Gives d.list xs ys ∧ ys.map g = xs.map f := by
  suffices given : ∃ ys, List.Forall₂ (c.Gives d) xs ys ∧ ys.map g = xs.map f by
    obtain ⟨ys, given, same⟩ := given
    exact ⟨ys, gives_list given solid, same⟩
  induction xs with
  | nil => exact ⟨[], .nil, rfl⟩
  | cons x xs ih =>
    obtain ⟨y, given, same⟩ := h x List.mem_cons_self
    obtain ⟨ys, later, rest⟩ := ih fun x hx => h x (List.mem_cons_of_mem _ hx)
    exact ⟨y :: ys, .cons given later, by rw [List.map_cons, List.map_cons, same, rest]⟩

theorem Codec.gives_size {n : Nat} (h : n ≤ 0xFFFFFFFFFFFFFFFF) : Codec.size.Gives Codec.size n n :=
  gives_nat (Nat.zero_le n) h (by omega)

theorem Codec.gives_scenario (s : Scenario) : Codec.scenario.Gives Codec.scenario s s :=
  gives_name (by cases s <;> rfl)

theorem Codec.gives_protocol (p : Protocol) : Codec.protocol.Gives Codec.protocol p p :=
  gives_name (by cases p <;> rfl)

theorem Codec.gives_seconds {x : Span} (h : x.ReadsBack) : ∃ y, Codec.seconds.Gives Codec.seconds x y := by
  obtain ⟨y, read, span⟩ := h.1
  obtain ⟨x', found⟩ := Option.isSome_iff_exists.1 span
  exact ⟨x', gives_narrow (gives_float read) rfl found⟩

theorem Codec.gives_milliseconds {x : Span} (moderate : x.Moderate) (h : x.ReadsBack) :
    ∃ y, Codec.milliseconds.Gives Codec.milliseconds x y := by
  obtain ⟨m, written⟩ := Span.toMilliseconds?_of_moderate moderate
  obtain ⟨y, read, span⟩ := h.2 m written
  obtain ⟨x', found⟩ := Option.isSome_iff_exists.1 span
  exact ⟨x', gives_narrow (gives_float read) written found⟩

theorem Codec.gives_stamp {t : Stamp} (h : t.Plain) : Codec.stamp.Gives Codec.stamp t t := by
  obtain ⟨s, written, read⟩ := Stamp.parse_write h
  refine gives_narrow (gives_text (String.ofList s)) ?_ ?_
  · rw [written]
    rfl
  · rw [String.toList_ofList, read]

theorem Codec.gives_doubles {p : Float → Bool} {o : Option Float} (h : ∀ x ∈ o, ReadsAs p x) :
    ∃ o', Codec.float.option.Gives Codec.float.option o o' ∧ o'.isSome = o.isSome := by
  obtain ⟨o', given, same⟩ := gives_option (f := fun _ => ()) (g := fun _ => ())
    (fun x hx => (h x hx).imp fun _ read => ⟨gives_float read.1, rfl⟩) solid_readFloat
  have presence := congrArg Option.isSome same
  rw [Option.isSome_map, Option.isSome_map] at presence
  exact ⟨o', given, presence⟩

end Json

/-! ### Records -/

variable {p : Float → Bool}

theorem ResourceStats.codec_gives {x : ResourceStats} (count : x.sampleCount ≤ 0xFFFFFFFFFFFFFFFF)
    (cpu : ReadsAs p x.cpuAvgPercent) (average : ReadsAs p x.memoryAvgMb) (peak : ReadsAs p x.memoryPeakMb) :
    ∃ x', ResourceStats.codec.Gives ResourceStats.codec x x' ∧ x'.sampleCount = x.sampleCount := by
  obtain ⟨cpu', cpu, _⟩ := cpu
  obtain ⟨average', average, _⟩ := average
  obtain ⟨peak', peak, _⟩ := peak
  refine ⟨⟨cpu', average', peak', x.sampleCount⟩, ?_, rfl⟩
  refine Json.Fields.codec_gives (y := (cpu', average', peak', x.sampleCount, ())) ?_ (by decide)
  exact .cons rfl (Codec.gives_float cpu) <| .cons rfl (Codec.gives_float average) <|
    .cons rfl (Codec.gives_float peak) <| .cons rfl (Codec.gives_size count) .nil

theorem Sample.codec_gives {s : Sample} (latency : s.latency.ReadsBack) (moderate : s.latency.Moderate)
    (stamp : s.timestamp.Plain) : ∃ s', Sample.codec.Gives Sample.codec s s' ∧
      (s'.success, s'.error, s'.timestamp) = (s.success, s.error, s.timestamp) := by
  obtain ⟨latency', latency⟩ := Codec.gives_milliseconds moderate latency
  refine ⟨⟨latency', s.success, s.error, s.timestamp⟩, ?_, rfl⟩
  have error := Codec.gives_same_option (o := s.error) (fun text _ => Codec.gives_text text) Json.solid_readText
  refine Json.Fields.codec_gives (y := (latency', s.success, s.error, s.timestamp, ())) ?_ (by decide)
  exact .cons rfl latency <| .cons rfl (Codec.gives_bool s.success) <| .cons rfl error <|
    .cons rfl (Codec.gives_stamp stamp) .nil

theorem RunMetadata.codec_gives {m : RunMetadata} (concurrency : m.concurrency ≤ 0xFFFFFFFFFFFFFFFF)
    (durationSec : m.durationSec ≤ 0xFFFFFFFFFFFFFFFF) (rateLimit : ∀ n ∈ m.rateLimit, n ≤ 0xFFFFFFFF)
    (cpu : ∀ x ∈ m.cpuUsageAvg, ReadsAs p x) (average : ∀ x ∈ m.memoryMbAvg, ReadsAs p x)
    (peak : ∀ x ∈ m.memoryMbPeak, ReadsAs p x) :
    ∃ cpu' average' peak', RunMetadata.codec.Gives RunMetadata.codec m
        { m with cpuUsageAvg := cpu', memoryMbAvg := average', memoryMbPeak := peak' } ∧
      cpu'.isSome = m.cpuUsageAvg.isSome ∧ average'.isSome = m.memoryMbAvg.isSome ∧
      peak'.isSome = m.memoryMbPeak.isSome := by
  obtain ⟨cpu', cpu, someCpu⟩ := Codec.gives_doubles cpu
  obtain ⟨average', average, someAverage⟩ := Codec.gives_doubles average
  obtain ⟨peak', peak, somePeak⟩ := Codec.gives_doubles peak
  have rate := Codec.gives_same_option (fun n hn => Codec.gives_nat (Nat.zero_le n) (rateLimit n hn) (by
    have := rateLimit n hn
    omega)) (Json.solid_readNat 0 0xFFFFFFFF)
  refine ⟨cpu', average', peak', ?_, someCpu, someAverage, somePeak⟩
  refine Json.Fields.codec_gives (y := (m.scenario, m.protocol, m.client, m.concurrency, m.durationSec, m.rateLimit,
    cpu', average', peak', ())) ?_ (by decide)
  exact .cons rfl (Codec.gives_scenario _) <| .cons rfl (Codec.gives_protocol _) <| .cons rfl (Codec.gives_text _) <|
    .cons rfl (Codec.gives_size concurrency) <| .cons rfl (Codec.gives_size durationSec) <| .cons rfl rate <|
    .cons rfl cpu <| .cons rfl average <| .cons rfl peak .nil

theorem RunStatistics.codec_gives {s : RunStatistics} (total : s.totalRequests ≤ 0xFFFFFFFFFFFFFFFF)
    (successful : s.successfulRequests ≤ 0xFFFFFFFFFFFFFFFF) (errorRate : ReadsAs p s.errorRate)
    (throughput : ReadsAs p s.throughput) (duration : s.duration.ReadsBack)
    (latencies : ∀ d ∈ [s.latencyP50, s.latencyP90, s.latencyP99, s.latencyAvg, s.latencyMin, s.latencyMax],
      d.Moderate ∧ d.ReadsBack)
    (resources : ∀ x ∈ s.resources, x.sampleCount ≤ 0xFFFFFFFFFFFFFFFF ∧ ReadsAs p x.cpuAvgPercent ∧
      ReadsAs p x.memoryAvgMb ∧ ReadsAs p x.memoryPeakMb) :
    ∃ s', RunStatistics.codec.Gives RunStatistics.codec s s' ∧ s'.totalRequests = s.totalRequests ∧
      s'.successfulRequests = s.successfulRequests ∧
      s'.resources.map ResourceStats.sampleCount = s.resources.map ResourceStats.sampleCount := by
  obtain ⟨rate', rate, _⟩ := errorRate
  obtain ⟨throughput', throughput, _⟩ := throughput
  obtain ⟨duration', duration⟩ := Codec.gives_seconds duration
  have latency : ∀ d ∈ [s.latencyP50, s.latencyP90, s.latencyP99, s.latencyAvg, s.latencyMin, s.latencyMax],
      ∃ d', Codec.milliseconds.Gives Codec.milliseconds d d' := fun d hd =>
    Codec.gives_milliseconds (latencies d hd).1 (latencies d hd).2
  simp only [List.forall_mem_cons] at latency
  obtain ⟨⟨p50', p50⟩, ⟨p90', p90⟩, ⟨p99', p99⟩, ⟨average', average⟩, ⟨least', least⟩, ⟨most', most⟩, _⟩ := latency
  obtain ⟨resources', resources, counts⟩ := Codec.gives_option (c := ResourceStats.codec) (d := ResourceStats.codec)
    (f := ResourceStats.sampleCount) (g := ResourceStats.sampleCount)
    (fun x hx => ResourceStats.codec_gives (resources x hx).1 (resources x hx).2.1 (resources x hx).2.2.1
      (resources x hx).2.2.2) (Json.solid_codec _ _ _)
  refine ⟨⟨s.totalRequests, s.successfulRequests, rate', throughput', duration', p50', p90', p99', average', least',
    most', resources'⟩, ?_, rfl, rfl, counts⟩
  refine Json.Fields.codec_gives (y := (s.totalRequests, s.successfulRequests, rate', throughput', duration', p50', p90',
    p99', average', least', most', resources', ())) ?_ (by decide)
  exact .cons rfl (Codec.gives_size total) <| .cons rfl (Codec.gives_size successful) <|
    .cons rfl (Codec.gives_float rate) <| .cons rfl (Codec.gives_float throughput) <| .cons rfl duration <|
    .cons rfl p50 <| .cons rfl p90 <| .cons rfl p99 <| .cons rfl average <| .cons rfl least <| .cons rfl most <|
    .cons rfl resources .nil

namespace RunReport

variable {r : RunReport}

theorem mem_spans {d : Span} : d ∈ r.spans ↔ d = r.statistics.duration ∨
    d ∈ [r.statistics.latencyP50, r.statistics.latencyP90, r.statistics.latencyP99, r.statistics.latencyAvg,
      r.statistics.latencyMin, r.statistics.latencyMax] ∨ ∃ s ∈ r.samples, s.latency = d := by
  simp [spans, or_assoc]

theorem forall_doubles {P : Float → Prop} : (∀ x ∈ r.doubles, P x) ↔
    (∀ x ∈ r.metadata.cpuUsageAvg, P x) ∧ (∀ x ∈ r.metadata.memoryMbAvg, P x) ∧ (∀ x ∈ r.metadata.memoryMbPeak, P x) ∧
    (P r.statistics.errorRate ∧ P r.statistics.throughput) ∧
    ∀ s ∈ r.statistics.resources, P s.cpuAvgPercent ∧ P s.memoryAvgMb ∧ P s.memoryPeakMb := by
  simp only [doubles, List.forall_mem_append, List.forall_mem_cons, List.forall_mem_flatMap, Option.mem_toList, Option.mem_def,
    List.not_mem_nil, false_imp_iff, implies_true, and_true, and_assoc]

/-- A report is written, and read back from the compact and from the indented text as one that is like it but for the
doubles and the lengths of time, if these are read back at all. -/
theorem alike_of_export (r : RunReport) (h : r.Exportable) (doubles : ∀ x ∈ r.doubles, x.isFinite = true → ReadsAs Float.isFinite x)
    (spans : ∀ d ∈ r.spans, d.Moderate → d.ReadsBack) :
    ∃ v r', RunReport.codec.write r = some v ∧ Json.read RunReport.codec.read v.compact = .ok r' ∧
      Json.read RunReport.codec.read v.indented = .ok r' ∧ r.Alike r' := by
  obtain ⟨cpu, average, peak, ⟨errorRate, throughput⟩, figures⟩ := forall_doubles.1 fun x hx => doubles x hx (h.doubles x hx)
  have span : ∀ d ∈ r.spans, d.Moderate ∧ d.ReadsBack := fun d hd => ⟨h.spans d hd, spans d hd (h.spans d hd)⟩
  obtain ⟨cpu', average', peak', metadata, someCpu, someAverage, somePeak⟩ := RunMetadata.codec_gives h.concurrency
    h.durationSec h.rateLimit cpu average peak
  obtain ⟨statistics', statistics, total, successful, resources⟩ := RunStatistics.codec_gives (s := r.statistics)
    h.totalRequests h.successfulRequests errorRate throughput (span _ (mem_spans.2 (.inl rfl))).2
    (fun d hd => span d (mem_spans.2 (.inr (.inl hd)))) (fun x hx => ⟨h.sampleCount x hx, figures x hx⟩)
  have sample : ∀ s ∈ r.samples, ∃ s', Sample.codec.Gives Sample.codec s s' ∧
      (s'.success, s'.error, s'.timestamp) = (s.success, s.error, s.timestamp) := fun s hs => by
    obtain ⟨moderate, reads⟩ := span s.latency (mem_spans.2 (.inr (.inr ⟨s, hs, rfl⟩)))
    exact Sample.codec_gives reads moderate (h.stamps s hs)
  obtain ⟨samples', samples, same⟩ := Codec.gives_items sample (Json.solid_codec _ _ _)
  have given : RunReport.codec.Gives RunReport.codec r
      ⟨{ r.metadata with cpuUsageAvg := cpu', memoryMbAvg := average', memoryMbPeak := peak' }, statistics', samples'⟩ := by
    refine Json.Fields.codec_gives (y := (_, statistics', samples', ())) ?_ (by decide)
    exact .cons rfl metadata <| .cons rfl statistics <| .cons rfl samples .nil
  obtain ⟨v, written, read⟩ := given.read
  exact ⟨v, _, written, read _ Json.spaced_compactLayout, read _ Json.spaced_indentedLayout,
    ⟨rfl, rfl, rfl, rfl, rfl, rfl, someCpu, someAverage, somePeak, total, successful, resources, same⟩⟩

/-- Texts that need escapes, an error that says nothing, a leap day, and the first and the last second that can be written. -/
def unusual : RunReport where
  metadata := ⟨.stream, .rest, "rust \"rest\"\n\x01 \\ é漢😀", 4, 30, some 250, some 12.5, none, some 48.25⟩
  statistics :=
    { totalRequests := 3, successfulRequests := 1, errorRate := 66.66666666666667, throughput := 0.1,
      duration := Span.ofMillis 30001, latencyP50 := Span.ofNanos 1234567, latencyMax := Span.ofSecs 86400,
      resources := some ⟨12.5, 40.125, 48.25, 7⟩ }
  samples := [
    ⟨Span.ofNanos 1234567, true, none, ⟨1709251199, 123456789, 0⟩⟩,
    ⟨Span.zero, false, some "", ⟨-62167219200, 0, 0⟩⟩,
    ⟨Span.ofSecs 86400, false, some "\tlost", ⟨253402300799, 999999999, 0⟩⟩]

theorem alike_of_unusual : unusual.Exportable ∧ (∀ x ∈ unusual.doubles, x.isFinite = true → ReadsAs Float.isFinite x) ∧
    (∀ d ∈ unusual.spans, d.Moderate → d.ReadsBack) ∧
    ∃ v r', RunReport.codec.write unusual = some v ∧ Json.read RunReport.codec.read v.compact = .ok r' ∧
      Json.read RunReport.codec.read v.indented = .ok r' ∧ unusual.Alike r' := by
  have plain : ∀ s ∈ unusual.samples, s.timestamp.offset = 0 ∧ s.timestamp.nanos < 1000000000 ∧
      0 ≤ (Day.ofNumber (s.timestamp.seconds / Stamp.perDay)).year ∧
      (Day.ofNumber (s.timestamp.seconds / Stamp.perDay)).year ≤ 9999 := by decide
  have exportable : unusual.Exportable := {
    concurrency := by decide
    durationSec := by decide
    rateLimit := by decide
    totalRequests := by decide
    successfulRequests := by decide
    sampleCount := by decide
    doubles := by decide +kernel
    spans := by decide +kernel
    stamps := fun s hs => ⟨(plain s hs).1, (plain s hs).2.1, (plain s hs).2.2⟩ }
  have doubles : ∀ x ∈ unusual.doubles, x.isFinite = true → ReadsAs Float.isFinite x := by decide +kernel
  have spans : ∀ d ∈ unusual.spans, d.Moderate → d.ReadsBack := by decide +kernel
  exact ⟨exportable, doubles, spans, alike_of_export unusual exportable doubles spans⟩

end RunReport

end LedgerLoad
