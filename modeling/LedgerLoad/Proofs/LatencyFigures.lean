import LedgerLoad.Proofs.SinkFigures
import LedgerLoad.Proofs.WholeDoubles
import Mathlib

/-!
What the latency figures say about the measured latencies.

A percentile is an order statistic, whatever double it is asked for: counting the measured latencies below and up to the
answer says so, and does not mention any order of them. For the percentiles that are reported the place is computed without
loss, and then the figures agree with one another.
-/

set_option autoImplicit false

namespace LedgerLoad

variable {xs : List Span} {v : Span} {i j k n q : ℕ} {p : Float}

namespace Sink

def measured (s : Sink) : List Span := (s.samples.toList.filter Sample.hasLatency).map (·.latency)

theorem latencies_perm_measured (s : Sink) : s.latencies.Perm s.measured := Figures.latencies_perm s.samples.toList

theorem sorted_latencies (s : Sink) : s.latencies.Pairwise fun a b => a.nanos ≤ b.nanos :=
  Figures.pairwise_latencies s.samples.toList

theorem latencies_eq_nil {s : Sink} : s.latencies = [] ↔ s.measured = [] := by
  rw [← List.length_eq_zero_iff, ← List.length_eq_zero_iff, s.latencies_perm_measured.length_eq]

theorem measured_pos {s : Sink} (h : v ∈ s.measured) : 0 < v.nanos := by
  obtain ⟨x, hx, rfl⟩ := List.mem_map.1 h
  have timed := (List.mem_filter.1 hx).2
  simp only [Sample.hasLatency, Span.isZero, Bool.and_eq_true, Bool.not_eq_true', beq_eq_false_iff_ne] at timed
  exact Nat.pos_of_ne_zero timed.2

theorem length_measured_le (s : Sink) : s.measured.length ≤ s.samples.size := by
  rw [measured, List.length_map, ← Array.length_toList]
  exact List.length_filter_le _ _

end Sink

namespace Figures

/-! ### Places in order -/

/-- The value at place `k` of values in order has at most `k` values below it, and more than `k` that are no larger. -/
theorem countP_place (sorted : xs.Pairwise fun a b => a.nanos ≤ b.nanos) (h : xs[k]? = some v) :
    xs.countP (fun x => x.nanos < v.nanos) ≤ k ∧ k + 1 ≤ xs.countP fun x => x.nanos ≤ v.nanos := by
  induction xs generalizing k with
  | nil => simp at h
  | cons x xs ih =>
    obtain ⟨first, rest⟩ := List.pairwise_cons.1 sorted
    rw [List.countP_cons, List.countP_cons]
    cases k with
    | zero =>
      obtain rfl : x = v := by simpa using h
      have none : xs.countP (fun y => y.nanos < x.nanos) = 0 := by
        rw [List.countP_eq_zero]
        intro y hy
        have := first y hy
        simp only [decide_eq_true_eq]
        omega
      simp [none]
    | succ k =>
      rw [List.getElem?_cons_succ] at h
      obtain ⟨below, upTo⟩ := ih rest h
      have le : x.nanos ≤ v.nanos := first v (List.mem_of_getElem? h)
      simp only [le, decide_true, if_true]
      constructor
      · split <;> omega
      · omega

theorem place_mono (sorted : xs.Pairwise fun a b => a.nanos ≤ b.nanos) (le : i ≤ j) (last : j ≤ xs.length - 1) :
    (xs[i]?).getD Span.zero ≤ (xs[j]?).getD Span.zero := by
  rcases Nat.eq_zero_or_pos xs.length with none | pos
  · rw [List.eq_nil_of_length_eq_zero none]
    exact Nat.le_refl _
  rw [List.getElem?_eq_getElem (by omega), List.getElem?_eq_getElem (by omega)]
  rcases Nat.lt_or_eq_of_le le with less | rfl
  · exact List.pairwise_iff_getElem.1 sorted i j _ _ less
  · exact Nat.le_refl _

theorem least_eq_place (xs : List Span) : least xs = (xs[0]?).getD Span.zero := by
  rw [least, List.head?_eq_getElem?]

theorem most_eq_place (xs : List Span) : most xs = (xs[xs.length - 1]?).getD Span.zero := by
  rw [most, List.getLast?_eq_getElem?]

theorem rank_eq_index (n : ℕ) (p : Float) :
    rank n p = min (index (n.toUInt64.toFloat * p / 100).toModel.unpack) (n - 1) := by
  rw [rank, toUInt64_eq_index]

example : ([50, -5, 200, -1 / 0, 1 / 0, 0 / 0].map (rank 5)) = [2, 0, 4, 0, 4, 0] := by decide +kernel

/-- Whole percentages of not too many values have their exact place. -/
theorem rank_whole (hp : p.toModel.unpack = wholeDouble q) (hq : q ≤ 100) (hn : n < 2 ^ 34) :
    rank n p = min (n * q / 100) (n - 1) := by
  have product : n * q ≤ n * 100 := Nat.mul_le_mul_left n hq
  have scaled := mul_whole (toFloat_whole (n := n) (by omega)) hp (by omega) (by omega) (by omega)
  rw [rank, toUInt64_div_whole (d := 100) scaled rfl (by omega) (by decide) (by decide)]

/-! ### Sums and means -/

theorem totalNanos_eq_sum (xs : List Span) : totalNanos xs = (xs.map (·.nanos)).sum := by
  rw [totalNanos, List.sum_eq_foldr, List.foldr_map]

theorem totalNanos_bounds {lo hi : ℕ} (low : ∀ x ∈ xs, lo ≤ x.nanos) (high : ∀ x ∈ xs, x.nanos ≤ hi) :
    xs.length * lo ≤ totalNanos xs ∧ totalNanos xs ≤ xs.length * hi := by
  induction xs with
  | nil => simp [totalNanos]
  | cons x xs ih =>
    obtain ⟨below, above⟩ := ih (fun y hy => low y (List.mem_cons_of_mem x hy)) fun y hy => high y (List.mem_cons_of_mem x hy)
    have first := low x List.mem_cons_self
    have last := high x List.mem_cons_self
    change _ ≤ x.nanos + totalNanos xs ∧ x.nanos + totalNanos xs ≤ _
    rw [List.length_cons, Nat.succ_mul, Nat.succ_mul]
    omega

theorem average_nanos (filled : xs ≠ []) : (average xs).nanos = min (totalNanos xs / xs.length) (2 ^ 64 - 1) := by
  rw [average, List.isEmpty_eq_false_iff.2 filled, if_neg (by decide), Span.ofNanos_of_lt]
  · change min _ (2 ^ 64 - 1) = _
    rfl
  · exact Nat.lt_of_le_of_lt (Nat.min_le_right _ _) (by decide)

end Figures

/-! ### Percentiles -/

namespace Sink

/-- A percentile is zero of nothing measured. Otherwise it is a measured latency with at most `k` of them below it and more
than `k` of them up to it, for the place `k` that doubles say, cut to the last one. Every double has such a place. -/
theorem percentile_is_order_statistic (s : Sink) (p : Float) :
    (s.measured = [] → s.percentile p = Span.zero) ∧
    (s.measured ≠ [] →
      ∃ k v, k = min (index (s.measured.length.toUInt64.toFloat * p / 100).toModel.unpack) (s.measured.length - 1) ∧
        s.latencies[k]? = some v ∧ s.percentile p = v ∧ v ∈ s.measured ∧
        s.measured.countP (fun x => x.nanos < v.nanos) ≤ k ∧ k + 1 ≤ s.measured.countP fun x => x.nanos ≤ v.nanos) := by
  have same := s.latencies_perm_measured
  constructor
  · intro none
    rw [percentile, latencies_eq_nil.2 none]
    rfl
  · intro filled
    have pos : 0 < s.measured.length := List.length_pos_iff.2 filled
    have place := Figures.rank_eq_index s.measured.length p
    have inside : Figures.rank s.measured.length p < s.latencies.length := by
      rw [same.length_eq, place]
      omega
    have found := List.getElem?_eq_getElem inside
    have among := same.subset (List.getElem_mem inside)
    obtain ⟨below, upTo⟩ := Figures.countP_place s.sorted_latencies found
    rw [same.countP_eq] at below upTo
    refine ⟨_, _, place, found, ?_, among, below, upTo⟩
    rw [percentile, Figures.percentile, same.length_eq, found, Option.getD_some]

/-! ### Agreement of the figures -/

structure Consistent (s : Sink) : Prop where
  ordered : s.statistics.latencyMin ≤ s.statistics.latencyP50 ∧ s.statistics.latencyP50 ≤ s.statistics.latencyP90 ∧
    s.statistics.latencyP90 ≤ s.statistics.latencyP99 ∧ s.statistics.latencyP99 ≤ s.statistics.latencyMax
  ends : s.percentile 0 = s.statistics.latencyMin ∧ s.percentile 100 = s.statistics.latencyMax
  range : ∀ v ∈ s.measured, s.statistics.latencyMin ≤ v ∧ v ≤ s.statistics.latencyMax
  sum : (s.measured.map (·.nanos)).sum < 2 ^ 128
  mean : s.measured ≠ [] →
    s.statistics.latencyAvg.nanos = min ((s.measured.map (·.nanos)).sum / s.measured.length) (2 ^ 64 - 1)
  uncapped : s.statistics.latencyMax.nanos ≤ 2 ^ 64 - 1 →
    (s.measured ≠ [] → s.statistics.latencyAvg.nanos = (s.measured.map (·.nanos)).sum / s.measured.length) ∧
    s.statistics.latencyMin ≤ s.statistics.latencyAvg ∧ s.statistics.latencyAvg ≤ s.statistics.latencyMax
  zero : (∀ v ∈ [s.statistics.latencyP50, s.statistics.latencyP90, s.statistics.latencyP99, s.statistics.latencyAvg,
    s.statistics.latencyMin, s.statistics.latencyMax], v = Span.zero) ↔ s.measured = []
  positive : s.measured ≠ [] → 0 < s.statistics.latencyMin.nanos

theorem sum_measured (s : Sink) : (s.measured.map (·.nanos)).sum = Figures.totalNanos s.latencies := by
  rw [Figures.totalNanos_eq_sum]
  exact (s.latencies_perm_measured.symm.map _).sum_eq

theorem minLatency_mem {s : Sink} (filled : s.measured ≠ []) : s.minLatency ∈ s.measured := by
  have same := s.latencies_perm_measured
  refine same.subset ?_
  rw [minLatency, Figures.least]
  cases h : s.latencies with
  | nil => exact (filled (List.nil_perm.1 (h ▸ same))).elim
  | cons v rest => exact List.mem_cons_self

theorem minLatency_le {s : Sink} (h : v ∈ s.measured) : s.minLatency ≤ v := by
  obtain ⟨j, hj, rfl⟩ := List.mem_iff_getElem.1 (s.latencies_perm_measured.symm.subset h)
  have step := Figures.place_mono s.sorted_latencies (Nat.zero_le j) (Nat.le_sub_one_of_lt hj)
  rw [List.getElem?_eq_getElem hj] at step
  rw [minLatency, Figures.least_eq_place]
  exact step

theorem le_maxLatency {s : Sink} (h : v ∈ s.measured) : v ≤ s.maxLatency := by
  obtain ⟨j, hj, rfl⟩ := List.mem_iff_getElem.1 (s.latencies_perm_measured.symm.subset h)
  have step := Figures.place_mono s.sorted_latencies (Nat.le_sub_one_of_lt hj) (Nat.le_refl _)
  rw [List.getElem?_eq_getElem hj] at step
  rw [maxLatency, Figures.most_eq_place]
  exact step

theorem percentile_mono {s : Sink} {r : ℕ} {t : Float} (few : s.samples.size < 2 ^ 34) (hp : p.toModel.unpack = wholeDouble q)
    (ht : t.toModel.unpack = wholeDouble r) (le : q ≤ r) (hr : r ≤ 100) : s.percentile p ≤ s.percentile t := by
  have size := s.length_measured_le
  rw [← s.latencies_perm_measured.length_eq] at size
  refine Figures.place_mono s.sorted_latencies ?_ ?_
  · rw [Figures.rank_whole hp (by omega) (by omega), Figures.rank_whole ht hr (by omega)]
    exact min_le_min_right _ (Nat.div_le_div_right (Nat.mul_le_mul_left _ le))
  · exact Nat.min_le_right _ _

theorem percentile_zero {s : Sink} (few : s.samples.size < 2 ^ 34) : s.percentile 0 = s.minLatency := by
  have size := s.length_measured_le
  rw [← s.latencies_perm_measured.length_eq] at size
  rw [percentile, Figures.percentile, minLatency, Figures.least_eq_place, Figures.rank_whole (q := 0) rfl (by omega) (by omega),
    Nat.mul_zero, Nat.zero_div, Nat.zero_min]

theorem percentile_hundred {s : Sink} (few : s.samples.size < 2 ^ 34) : s.percentile 100 = s.maxLatency := by
  have size := s.length_measured_le
  rw [← s.latencies_perm_measured.length_eq] at size
  rw [percentile, Figures.percentile, maxLatency, Figures.most_eq_place, Figures.rank_whole (q := 100) rfl (by omega) (by omega),
    Nat.mul_div_cancel _ (by decide), Nat.min_eq_right (Nat.sub_le _ _)]

theorem totalNanos_between {s : Sink} :
    s.measured.length * s.minLatency.nanos ≤ Figures.totalNanos s.latencies ∧
      Figures.totalNanos s.latencies ≤ s.measured.length * s.maxLatency.nanos := by
  have same := s.latencies_perm_measured
  rw [← same.length_eq]
  exact Figures.totalNanos_bounds (fun v hv => minLatency_le (same.subset hv)) fun v hv => le_maxLatency (same.subset hv)

theorem avgLatency_nanos {s : Sink} (filled : s.measured ≠ []) :
    s.avgLatency.nanos = min ((s.measured.map (·.nanos)).sum / s.measured.length) (2 ^ 64 - 1) := by
  rw [avgLatency, Figures.average_nanos (mt latencies_eq_nil.1 filled), sum_measured, s.latencies_perm_measured.length_eq]

theorem avgLatency_uncapped {s : Sink} (filled : s.measured ≠ []) (short : s.maxLatency.nanos ≤ 2 ^ 64 - 1) :
    s.avgLatency.nanos = (s.measured.map (·.nanos)).sum / s.measured.length ∧
      s.minLatency ≤ s.avgLatency ∧ s.avgLatency ≤ s.maxLatency := by
  have pos : 0 < s.measured.length := List.length_pos_iff.2 filled
  obtain ⟨below, above⟩ := s.totalNanos_between
  have low := (Nat.le_div_iff_mul_le pos).2 (Nat.mul_comm _ _ ▸ below)
  have high := Nat.div_le_of_le_mul above
  have mean := avgLatency_nanos filled
  rw [sum_measured] at mean ⊢
  rw [Nat.min_eq_left (high.trans short)] at mean
  refine ⟨mean, ?_⟩
  change s.minLatency.nanos ≤ s.avgLatency.nanos ∧ s.avgLatency.nanos ≤ s.maxLatency.nanos
  rw [mean]
  exact ⟨low, high⟩

theorem statistics_of_nothing {s : Sink} (none : s.measured = []) :
    s.statistics.latencyP50 = Span.zero ∧ s.statistics.latencyP90 = Span.zero ∧ s.statistics.latencyP99 = Span.zero ∧
      s.statistics.latencyAvg = Span.zero ∧ s.statistics.latencyMin = Span.zero ∧ s.statistics.latencyMax = Span.zero := by
  have empty : Figures.latencies s.samples.toList = [] := latencies_eq_nil.2 none
  simp only [statistics, Figures.statistics, empty]
  exact ⟨rfl, rfl, rfl, rfl, rfl, rfl⟩

/-- The figures agree for fewer than 2^34 samples, however long their latencies are. -/
theorem figures_are_consistent (s : Sink) (few : s.samples.size < 2 ^ 34) : s.Consistent where
  ordered := by
    have low : s.percentile 0 ≤ s.percentile 50 := percentile_mono (q := 0) (r := 50) few rfl rfl (by decide) (by decide)
    have mid : s.percentile 50 ≤ s.percentile 90 := percentile_mono (q := 50) (r := 90) few rfl rfl (by decide) (by decide)
    have high : s.percentile 90 ≤ s.percentile 99 := percentile_mono (q := 90) (r := 99) few rfl rfl (by decide) (by decide)
    have top : s.percentile 99 ≤ s.percentile 100 := percentile_mono (q := 99) (r := 100) few rfl rfl (by decide) (by decide)
    rw [percentile_zero few] at low
    rw [percentile_hundred few] at top
    exact ⟨low, mid, high, top⟩
  ends := ⟨percentile_zero few, percentile_hundred few⟩
  range v hv := ⟨minLatency_le hv, le_maxLatency hv⟩
  sum := by
    have size := s.length_measured_le
    have all : ∀ v ∈ s.latencies, v.nanos ≤ 2 ^ 94 := by
      intro v _
      have := v.nanos_lt
      simp only [Span.limit] at this
      omega
    obtain ⟨_, most⟩ := Figures.totalNanos_bounds (fun v _ => Nat.zero_le v.nanos) all
    rw [s.latencies_perm_measured.length_eq] at most
    rw [sum_measured]
    omega
  mean := avgLatency_nanos
  uncapped := by
    intro short
    rcases eq_or_ne s.measured [] with none | filled
    · obtain ⟨_, _, _, mean, least, most⟩ := statistics_of_nothing none
      refine ⟨fun filled => (filled none).elim, ?_⟩
      rw [least, mean, most]
      exact ⟨Nat.le_refl _, Nat.le_refl _⟩
    · obtain ⟨mean, low, high⟩ := avgLatency_uncapped filled short
      exact ⟨fun _ => mean, low, high⟩
  zero := by
    constructor
    · intro zeros
      by_contra filled
      have pos := measured_pos (minLatency_mem filled)
      have zero : s.minLatency = Span.zero := zeros s.statistics.latencyMin (by simp)
      rw [zero] at pos
      exact Nat.lt_irrefl _ pos
    · intro none v hv
      obtain ⟨p50, p90, p99, mean, least, most⟩ := statistics_of_nothing none
      rw [p50, p90, p99, mean, least, most] at hv
      simpa using hv
  positive filled := measured_pos (minLatency_mem filled)

def wideSpread : Sink :=
  { samples := #[.succeeded (Span.ofMillis 30) {}, .succeeded (Span.ofMillis 10) {}, .unmeasured {},
      .succeeded (Span.ofSecs 50000000000) {}, .succeeded (Span.ofMillis 20) {}, .failed (Span.ofMillis 1) "boom" {},
      .succeeded (Span.ofMillis 20) {}] }

theorem figures_of_wideSpread : wideSpread.samples.size < 2 ^ 34 ∧ wideSpread.Consistent ∧
    wideSpread.measured.length = 5 ∧ wideSpread.statistics.latencyAvg.nanos = 10000000000016000000 := by
  have consistent := figures_are_consistent wideSpread (by decide)
  have five : wideSpread.measured.length = 5 := by decide +kernel
  have filled : wideSpread.measured ≠ [] := List.ne_nil_of_length_pos (by rw [five]; decide)
  refine ⟨by decide, consistent, five, ?_⟩
  rw [consistent.mean filled]
  decide +kernel

end Sink

end LedgerLoad
