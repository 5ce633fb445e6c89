import LedgerLoad.Sink

/-!
What the figures of a sink depend on.

Whoever writes to a sink does so one write at a time. The figures depend on which samples were written, and not on the
order in which their writers came by. The latency figures depend on the measured samples alone, the counts on all.
-/

set_option autoImplicit false

namespace LedgerLoad

inductive Write where
  | sample (x : Sample)
  | start (at_ : Nat)
  | finish (at_ : Nat)
  | resources (r : ResourceStats)

def Write.sample? : Write → Option Sample
  | .sample x => some x
  | _ => none

def added (ws : List Write) : List Sample := ws.filterMap Write.sample?

namespace Sink

def write (s : Sink) : Write → Sink
  | .sample x => s.add x
  | .start at_ => s.setStart at_
  | .finish at_ => s.setEnd at_
  | .resources r => s.setResources r

def writes (s : Sink) (ws : List Write) : Sink := ws.foldl write s

theorem writes_append (s : Sink) (ws vs : List Write) : s.writes (ws ++ vs) = (s.writes ws).writes vs :=
  List.foldl_append

theorem samples_write (s : Sink) (w : Write) :
    (s.write w).samples.toList = s.samples.toList ++ w.sample?.toList := by
  cases w <;> simp [write, add, setStart, setEnd, setResources, Write.sample?]

theorem samples_writes (s : Sink) (ws : List Write) :
    (s.writes ws).samples.toList = s.samples.toList ++ added ws := by
  induction ws generalizing s with
  | nil => simp [writes, added]
  | cons w ws ih =>
    have rest := ih (s.write w)
    have first : added (w :: ws) = w.sample?.toList ++ added ws := by
      cases w <;> rfl
    change ((s.write w).writes ws).samples.toList = _
    rw [rest, samples_write, first, List.append_assoc]

end Sink

/-! ### Lists of samples -/

namespace Figures

theorem pairwise_latencies (xs : List Sample) : (latencies xs).Pairwise fun a b => a.nanos ≤ b.nanos := by
  have transitive : ∀ a b c : Span, decide (a ≤ b) = true → decide (b ≤ c) = true → decide (a ≤ c) = true := by
    intro a b c hab hbc
    exact decide_eq_true (Nat.le_trans (of_decide_eq_true hab : a.nanos ≤ b.nanos) (of_decide_eq_true hbc))
  have total : ∀ a b : Span, (decide (a ≤ b) || decide (b ≤ a)) = true := by
    intro a b
    have either : a.nanos ≤ b.nanos ∨ b.nanos ≤ a.nanos := Nat.le_total _ _
    rcases either with h | h
    · simp [show a ≤ b from h]
    · simp [show b ≤ a from h]
  have sorted := List.pairwise_mergeSort transitive total ((xs.filter Sample.hasLatency).map (·.latency))
  exact sorted.imp fun h => of_decide_eq_true h

theorem latencies_perm (xs : List Sample) :
    (latencies xs).Perm ((xs.filter Sample.hasLatency).map (·.latency)) :=
  List.mergeSort_perm _ _

theorem latencies_eq_of_perm {xs ys : List Sample}
    (h : (xs.filter Sample.hasLatency).Perm (ys.filter Sample.hasLatency)) : latencies xs = latencies ys := by
  have same : (latencies xs).Perm (latencies ys) :=
    ((latencies_perm xs).trans (h.map _)).trans (latencies_perm ys).symm
  refine List.Perm.eq_of_pairwise (fun a b _ _ hab hba => ?_) (pairwise_latencies xs) (pairwise_latencies ys) same
  exact Span.ext_nanos (Nat.le_antisymm hab hba)

theorem errorRate_eq_of_perm {xs ys : List Sample} (h : xs.Perm ys) : errorRate xs = errorRate ys := by
  have failures := h.countP_eq fun x => !x.success
  have size := h.length_eq
  have empty := h.isEmpty_eq
  unfold errorRate
  rw [failures, size, empty]

theorem statistics_eq_of_perm {xs ys : List Sample} (h : xs.Perm ys) (window : Window)
    (resources : Option ResourceStats) : statistics xs window resources = statistics ys window resources := by
  have sorted : latencies xs = latencies ys := latencies_eq_of_perm (h.filter _)
  have successes := h.countP_eq fun x => x.success
  have size := h.length_eq
  have rate := errorRate_eq_of_perm h
  simp only [statistics, sorted, successes, size, rate]

theorem length_eq_success_add_failure (xs : List Sample) :
    xs.length = xs.countP (·.success) + xs.countP (fun x => !x.success) := by
  have split := List.length_eq_countP_add_countP (fun x : Sample => x.success) (l := xs)
  have failures : xs.countP (fun x => decide ¬x.success = true) = xs.countP fun x => !x.success := by
    congr 1
    funext x
    cases x.success <;> rfl
  omega

end Figures

/-! ### The law -/

structure RunStatistics.TimedAs (x y : RunStatistics) : Prop where
  p50 : x.latencyP50 = y.latencyP50
  p90 : x.latencyP90 = y.latencyP90
  p99 : x.latencyP99 = y.latencyP99
  avg : x.latencyAvg = y.latencyAvg
  min : x.latencyMin = y.latencyMin
  max : x.latencyMax = y.latencyMax

namespace Sink

/-- What a sink answers one figure at a time is what its statistics say. -/
structure Answers (s : Sink) (x : RunStatistics) : Prop where
  total : s.totalRequests = x.totalRequests
  successful : s.successfulRequests = x.successfulRequests
  errorRate : s.errorRate = x.errorRate
  throughput : s.throughput = x.throughput
  duration : s.duration = x.duration
  p50 : s.percentile 50 = x.latencyP50
  p90 : s.percentile 90 = x.latencyP90
  p99 : s.percentile 99 = x.latencyP99
  avg : s.avgLatency = x.latencyAvg
  min : s.minLatency = x.latencyMin
  max : s.maxLatency = x.latencyMax

theorem answers_statistics (s : Sink) : s.Answers s.statistics := by
  refine ⟨?_, rfl, rfl, ?_, rfl, rfl, rfl, rfl, rfl, rfl, rfl⟩
  · exact Array.length_toList.symm
  · change Figures.throughput s.samples.size _ = Figures.throughput s.samples.toList.length _
    rw [Array.length_toList]
    rfl

theorem failedRequests_statistics (s : Sink) :
    s.statistics.successfulRequests ≤ s.statistics.totalRequests ∧
    s.statistics.failedRequests = (s.samples.toList.filter fun x => !x.success).length := by
  have split := Figures.length_eq_success_add_failure s.samples.toList
  rw [← List.countP_eq_length_filter]
  change s.samples.toList.countP (·.success) ≤ s.samples.toList.length ∧
    s.samples.toList.length - s.samples.toList.countP (·.success) = _
  omega

theorem statistics_of_latencies {s t : Sink} (h : s.latencies = t.latencies) : s.statistics.TimedAs t.statistics := by
  have same : Figures.latencies s.samples.toList = Figures.latencies t.samples.toList := h
  constructor <;> simp only [Sink.statistics, Figures.statistics, same]

/-- Of whatever is written to a sink, its figures tell the samples apart and not their order. Failed samples and
unmeasured ones that come on top, wherever they come, count as requests and leave the latency figures alone. -/
theorem figures_of_reordered_writes (s : Sink) {ws vs : List Write} {extra : List Sample}
    (samples : (added ws).Perm (added vs ++ extra))
    (unmeasured : ∀ x ∈ extra, x.success = false ∨ x.latency = Span.zero) :
    ((∀ p, (s.writes ws).percentile p = (s.writes vs).percentile p) ∧
      (s.writes ws).avgLatency = (s.writes vs).avgLatency ∧
      (s.writes ws).minLatency = (s.writes vs).minLatency ∧
      (s.writes ws).maxLatency = (s.writes vs).maxLatency ∧
      (s.writes ws).statistics.TimedAs (s.writes vs).statistics) ∧
    (s.writes ws).totalRequests = (s.writes vs).totalRequests + extra.length ∧
    (extra = [] → (s.writes ws).errorRate = (s.writes vs).errorRate ∧
      ((s.writes ws).window = (s.writes vs).window → (s.writes ws).throughput = (s.writes vs).throughput ∧
        ((s.writes ws).resources = (s.writes vs).resources →
          (s.writes ws).statistics = (s.writes vs).statistics))) ∧
    (∀ t : Sink, t.Answers t.statistics ∧ t.statistics.successfulRequests ≤ t.statistics.totalRequests ∧
      t.statistics.failedRequests = (t.samples.toList.filter fun x => !x.success).length) := by
  have all : (s.writes ws).samples.toList.Perm ((s.writes vs).samples.toList ++ extra) := by
    rw [samples_writes, samples_writes, List.append_assoc]
    exact samples.append_left _
  have silent : extra.filter Sample.hasLatency = [] := by
    refine List.filter_eq_nil_iff.2 fun x hx => ?_
    rcases unmeasured x hx with failed | zero
    · simp [Sample.hasLatency, failed]
    · simp [Sample.hasLatency, zero, Span.isZero]
  have measured : (s.writes ws).latencies = (s.writes vs).latencies := by
    refine Figures.latencies_eq_of_perm ?_
    have kept := all.filter Sample.hasLatency
    rw [List.filter_append, silent, List.append_nil] at kept
    exact kept
  refine ⟨⟨fun p => ?_, ?_, ?_, ?_, statistics_of_latencies measured⟩, ?_, fun none => ?_,
    fun t => ⟨t.answers_statistics, t.failedRequests_statistics⟩⟩
  · simp only [Sink.percentile, measured]
  · simp only [Sink.avgLatency, measured]
  · simp only [Sink.minLatency, measured]
  · simp only [Sink.maxLatency, measured]
  · have size := all.length_eq
    rw [List.length_append, Array.length_toList, Array.length_toList] at size
    exact size
  · rw [none, List.append_nil] at all
    have size := all.length_eq
    rw [Array.length_toList, Array.length_toList] at size
    refine ⟨Figures.errorRate_eq_of_perm all, fun window => ⟨?_, fun resources => ?_⟩⟩
    · simp only [Sink.throughput, Sink.durationSeconds, Sink.duration, size, window]
    · simp only [Sink.statistics, window, resources]
      exact Figures.statistics_eq_of_perm all _ _

def turns : List Write :=
  [.sample (.succeeded (Span.ofMillis 20) {}), .sample (.unmeasured {}), .start 3, .sample (.failed (Span.ofMillis 500) "boom" {}),
    .sample (.succeeded (Span.ofMillis 10) {})]

def alone : List Write :=
  [.start 3, .sample (.succeeded (Span.ofMillis 10) {}), .sample (.succeeded (Span.ofMillis 20) {})]

theorem figures_of_turns :
    (added turns).Perm (added alone ++ [.unmeasured {}, .failed (Span.ofMillis 500) "boom" {}]) ∧
    (({} : Sink).writes turns).avgLatency = (({} : Sink).writes alone).avgLatency ∧
    (({} : Sink).writes turns).maxLatency = (({} : Sink).writes alone).maxLatency ∧
    (({} : Sink).writes turns).totalRequests = (({} : Sink).writes alone).totalRequests + 2 ∧
    (({} : Sink).writes alone.reverse).statistics = (({} : Sink).writes alone).statistics := by
  have mixed : (added turns).Perm (added alone ++ [.unmeasured {}, .failed (Span.ofMillis 500) "boom" {}]) := by
    decide +kernel
  have swapped : (added alone.reverse).Perm (added alone ++ []) := by decide +kernel
  obtain ⟨⟨_, avg, _, max, _⟩, total, _⟩ := figures_of_reordered_writes {} mixed (by decide +kernel)
  obtain ⟨_, _, same, _⟩ := figures_of_reordered_writes {} swapped (by simp)
  exact ⟨mixed, avg, max, total, ((same rfl).2 rfl).2 rfl⟩

end Sink

end LedgerLoad
