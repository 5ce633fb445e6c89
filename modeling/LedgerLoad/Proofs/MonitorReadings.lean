import LedgerLoad.Monitor.Loop
import LedgerLoad.Proofs.Magnitudes

/-!
What a monitor reads, and what it makes of it.

The figures that are put together reading by reading are those of all readings at once. A monitor that nothing keeps waiting
looks as often as the time it was given has room for, unless a panic ends it, and this is carried from look to look by where
the last look and the next one stand.
-/

set_option autoImplicit false

namespace LedgerLoad

def Probe.reading? : Probe → Option ProcessReading
  | .reading r => some r
  | .nothing | .panic => none

namespace ProcessReading

def cpu (r : ProcessReading) : Float := r.cpuPercent.toFloat

def megabytes (r : ProcessReading) : Float := r.rssBytes.toUInt64.toFloat / Readings.bytesPerMb

end ProcessReading

def average (xs : List Float) : Float := xs.foldl (· + ·) (-0.0) / xs.length.toUInt64.toFloat

structure Aggregates (rs : List ProcessReading) (figures : ResourceStats) : Prop where
  count : figures.sampleCount = rs.length
  nothing : rs = [] → figures = { cpuAvgPercent := 0, memoryAvgMb := 0, memoryPeakMb := 0, sampleCount := 0 }
  single : ∀ r, rs = [r] → figures.cpuAvgPercent = average [r.cpu]
  several : ∀ r s rest, rs = r :: s :: rest → figures.cpuAvgPercent = average ((s :: rest).map ProcessReading.cpu)
  memory : rs ≠ [] → figures.memoryAvgMb = average (rs.map ProcessReading.megabytes)
  peak : rs ≠ [] → figures.memoryPeakMb ∈ rs.map ProcessReading.megabytes ∧
    ∀ mb ∈ rs.map ProcessReading.megabytes, mb ≤ figures.memoryPeakMb

/-! ### Reading by reading -/

namespace Readings

variable {rs : List ProcessReading}

theorem mean_eq_average {xs : List Float} (h : xs ≠ []) : mean xs = average xs := by
  rw [mean, average, List.isEmpty_eq_false_iff.2 h]
  rfl

theorem foldl_push (r : Readings) : rs.foldl push r =
    { cpu := r.cpu ++ rs.map ProcessReading.cpu
      memoryMb := r.memoryMb ++ rs.map ProcessReading.megabytes
      memoryPeakMb := (rs.map ProcessReading.megabytes).foldl larger r.memoryPeakMb } := by
  induction rs generalizing r with
  | nil => simp
  | cons p rs ih =>
    rw [List.foldl_cons, ih]
    simp [push, ProcessReading.cpu, ProcessReading.megabytes]

/-- Nothing is lost by taking readings one at a time. -/
theorem stats_aggregate : Aggregates rs (rs.foldl push {}).stats := by
  rw [foldl_push]
  simp only [List.nil_append]
  refine ⟨by simp [stats], ?_, ?_, ?_, fun filled => ?_, fun filled => ?_⟩
  · rintro rfl
    rfl
  · rintro r rfl
    exact mean_eq_average (List.cons_ne_nil _ _)
  · rintro r s rest rfl
    exact mean_eq_average (List.cons_ne_nil _ _)
  · exact mean_eq_average fun none => filled (List.map_eq_nil_iff.1 none)
  · refine largest_of_magnitudes ?_ fun none => filled (List.map_eq_nil_iff.1 none)
    intro y hy
    obtain ⟨r, _, rfl⟩ := List.mem_map.1 hy
    exact magnitude_megabytes _

end Readings

/-! ### Look by look -/

/-- So many looks, or fewer and the last of them a panic. -/
def LookedAt (n : ℕ) (looks : List Probe) : Prop :=
  (.panic ∉ looks ∧ looks.length = n) ∨ ∃ before, looks = before ++ [.panic] ∧ .panic ∉ before ∧ looks.length ≤ n

namespace Monitor

variable {m : Monitor} {p : Probe} {interval now later stop : ℕ} {probe : ℕ → Probe}

def Keeps (m : Monitor) : Prop := m.sampler.readings = (m.looks.filterMap Probe.reading?).foldl Readings.push {}

def Follows (probe : ℕ → Probe) (m : Monitor) : Prop := m.looks = (List.range m.looks.length).map probe

/-- A monitor that nothing has kept waiting. Its looks stand an interval apart; the last one is not ahead and the next one
not behind, or the last one was a panic. -/
structure Timely (m : Monitor) (now : ℕ) : Prop where
  ongoing : m.sampler.alive = true → .panic ∉ m.looks ∧ m.due = m.began + m.looks.length * m.interval ∧ now ≤ m.due ∧
    m.began + (m.looks.length - 1) * m.interval ≤ now
  ended : m.sampler.alive = false → m.interval = 0 ∨ ∃ before, m.looks = before ++ [.panic] ∧ .panic ∉ before ∧
    m.began + before.length * m.interval ≤ now

theorem keeps_start : (start interval now).Keeps := rfl

theorem Keeps.look (h : m.Keeps) (alive : m.sampler.alive = true) : (m.look now p).Keeps := by
  unfold Keeps at h ⊢
  rw [Monitor.look, List.filterMap_append, List.foldl_append, ← h]
  cases p with
  | reading r => simp [Sampler.tick, alive, Probe.reading?]
  | nothing | panic => simp [Sampler.tick, alive, Probe.reading?, List.filterMap_cons]

theorem Keeps.aggregates (h : m.Keeps) : Aggregates (m.looks.filterMap Probe.reading?) m.figures := by
  rw [figures, h]
  exact Readings.stats_aggregate

theorem Follows.look (h : m.Follows probe) : (m.look now (probe m.looks.length)).Follows probe := by
  have length : (m.look now (probe m.looks.length)).looks.length = m.looks.length + 1 := List.length_append
  unfold Follows at h ⊢
  rw [length, List.range_succ, List.map_append, ← h]
  rfl

theorem timely_start : (start interval now).Timely now := by
  refine ⟨fun _ => by simp [start], fun gone => .inl ?_⟩
  exact Nat.eq_zero_of_not_pos (of_decide_eq_false gone)

theorem Timely.pass (h : m.Timely now) (hl : now ≤ later) (due : m.sampler.alive = true → later ≤ m.due) :
    m.Timely later := by
  refine ⟨fun alive => ?_, fun gone => ?_⟩
  · obtain ⟨calm, next, _, last⟩ := h.ongoing alive
    exact ⟨calm, next, due alive, by omega⟩
  · refine (h.ended gone).imp_right ?_
    rintro ⟨before, looks, calm, last⟩
    exact ⟨before, looks, calm, by omega⟩

theorem Timely.look (h : m.Timely now) (alive : m.sampler.alive = true) (due : m.due ≤ now) :
    (m.look now p).Timely now := by
  obtain ⟨calm, next, ahead, _⟩ := h.ongoing alive
  obtain rfl : m.due = now := by omega
  have length : (m.look m.due p).looks.length = m.looks.length + 1 := List.length_append
  have more : (m.look m.due p).looks = m.looks ++ [p] := rfl
  cases p with
  | reading | nothing =>
    refine ⟨fun _ => ⟨by simp [more, calm], ?_, ?_, ?_⟩, fun gone => ?_⟩
    · rw [due_look_due, length, Nat.add_mul, Nat.one_mul, next]
      exact Nat.add_assoc _ _ _
    · rw [due_look_due]
      exact Nat.le_add_right _ _
    · rw [length, Nat.add_sub_cancel]
      exact next.ge
    · have still : m.sampler.alive = false := by
        rw [← gone]
        simp [Monitor.look, Sampler.tick, alive]
      rw [alive] at still
      cases still
  | panic =>
    refine ⟨fun going => ?_, fun _ => .inr ⟨m.looks, rfl, calm, next.ge⟩⟩
    simp [Monitor.look, Sampler.tick, alive] at going

theorem Timely.lookedAt (h : m.Timely now) (positive : 0 < m.interval) (hb : m.began < now)
    (between : ¬ m.interval ∣ now - m.began) : LookedAt ((now - m.began) / m.interval + 1) m.looks := by
  cases alive : m.sampler.alive with
  | true =>
    obtain ⟨calm, next, ahead, last⟩ := h.ongoing alive
    refine .inl ⟨calm, ?_⟩
    cases hn : m.looks.length with
    | zero => 
      rw [hn, Nat.zero_mul] at next
      omega
    | succ n =>
      rw [hn, Nat.add_sub_cancel] at last
      rw [hn, Nat.succ_mul] at next
      have before : now - m.began ≠ (n + 1) * m.interval := fun whole => between (whole ▸ Nat.dvd_mul_left _ _)
      rw [Nat.succ_mul] at before
      have quotient : (now - m.began) / m.interval = n := 
        Nat.div_eq_of_lt_le (by omega) (by rw [Nat.succ_mul]; omega)
      rw [quotient]
  | false =>
    rcases h.ended alive with none | ⟨before, looks, calm, last⟩
    · omega
    · refine .inr ⟨before, looks, calm, ?_⟩
      have room : before.length ≤ (now - m.began) / m.interval := (Nat.le_div_iff_mul_le positive).2 (by omega)
      rw [looks, List.length_append, List.length_singleton]
      omega

/-! ### All looks up to a stop -/

theorem alive_of_listening (h : m.listening = true) : m.sampler.alive = true := by
  rw [listening, Bool.and_eq_true] at h
  exact h.1

theorem runUntil_preserves {P : Monitor → Prop}
    (look : ∀ m, m.sampler.alive = true → P m → P (m.look m.due (probe m.looks.length))) (h : P m) :
    P (m.runUntil probe stop) := by
  fun_induction runUntil probe stop m with
  | case1 m ready ih => exact ih (look m (alive_of_listening ready.1) h)
  | case2 m ready => exact h

theorem Timely.runUntil (h : m.Timely now) (running : m.stopped = false) (hs : now ≤ stop) :
    (m.runUntil probe stop).Timely stop := by
  fun_induction Monitor.runUntil probe stop m generalizing now with
  | case1 m ready ih =>
    have alive := alive_of_listening ready.1
    have due : m.Timely m.due := h.pass (h.ongoing alive).2.2.1 fun _ => le_rfl
    exact ih (due.look alive le_rfl) running ready.2.le
  | case2 m ready =>
    refine h.pass hs fun alive => ?_
    by_contra ahead
    exact ready ⟨by simp [listening, alive, running], by omega⟩

theorem Keeps.runUntil (h : m.Keeps) : (m.runUntil probe stop).Keeps :=
  runUntil_preserves (fun _ alive keeps => keeps.look alive) h

theorem Follows.runUntil (h : m.Follows probe) : (m.runUntil probe stop).Follows probe :=
  runUntil_preserves (fun _ _ follows => follows.look) h

theorem timing_runUntil : (m.runUntil probe stop).began = m.began ∧ (m.runUntil probe stop).interval = m.interval :=
  runUntil_preserves (P := fun v => v.began = m.began ∧ v.interval = m.interval) (fun _ _ same => same) ⟨rfl, rfl⟩

/-- A monitor that nothing keeps waiting, stopped when no look is due. It has looked as often as there was room for looks, or
up to the first panic, and its figures are those of what it has read. -/
theorem runUntil_start (positive : 0 < interval) (hs : 0 < stop) (between : ¬ interval ∣ stop) :
    LookedAt (stop / interval + 1) ((start interval 0).runUntil probe stop).looks ∧
    ((start interval 0).runUntil probe stop).Follows probe ∧
    Aggregates (((start interval 0).runUntil probe stop).looks.filterMap Probe.reading?)
      ((start interval 0).runUntil probe stop).figures := by
  have timely : ((start interval 0).runUntil probe stop).Timely stop := timely_start.runUntil rfl (Nat.zero_le _)
  obtain ⟨began, same⟩ : ((start interval 0).runUntil probe stop).began = 0 ∧
    ((start interval 0).runUntil probe stop).interval = interval := timing_runUntil
  have count := timely.lookedAt (by rwa [same]) (by rwa [began]) (by rwa [began, same])
  rw [began, same] at count
  exact ⟨count, Follows.runUntil rfl, keeps_start.runUntil.aggregates⟩

end Monitor

end LedgerLoad
