import LedgerLoad.Config

/-!
How far the waits between attempts double.

A wait is the interval times a factor, and both are bounded: the factor stays at the largest number of 32 bits, the wait
at the longest span. The first bound is reached long before the second for short intervals, and it is no power of two.
From there on the waits neither double nor grow.
-/

set_option autoImplicit false

namespace LedgerLoad

variable {s : Span} {j k n : Nat}

namespace Span

@[simp] theorem longest_nanos : longest.nanos = limit - 1 := Nat.min_self _

theorem scale_nanos (s : Span) (k : Nat) : (s.scale k).nanos = min longest.nanos (s.nanos * k) := by
  rw [longest_nanos, Nat.min_comm]
  rfl

/-- A multiple in whole seconds and the nanoseconds beyond them, which are multiplied apart: what makes a second is carried
over. None if the seconds leave 64 bits. -/
def multiplied? (s : Span) (k : Nat) : Option (Nat × Nat) :=
  let secs := s.secs * k + s.subsec * k / 1000000000
  if secs < 0x10000000000000000 then some (secs, s.subsec * k % 1000000000) else none

/-- Seconds run out exactly where the multiple as a whole leaves the range of spans. -/
theorem parts_scale (s : Span) (k : Nat) :
    ((s.scale k).secs, (s.scale k).subsec) = (s.multiplied? k).getD (longest.secs, longest.subsec) := by
  have parts : s.nanos = s.secs * 1000000000 + s.subsec := by
    unfold secs subsec
    omega
  have whole : s.nanos * k = s.secs * k * 1000000000 + s.subsec * k := by
    rw [parts, Nat.add_mul, Nat.mul_right_comm]
  have range : limit = 18446744073709551616 * 1000000000 := rfl
  change ((s.scale k).nanos / 1000000000, (s.scale k).nanos % 1000000000) = _
  simp only [multiplied?, scale_nanos, longest_nanos, whole]
  generalize s.secs * k = a, s.subsec * k = b
  split
  · rename_i inRange
    rw [Nat.min_eq_right (by omega), Option.getD_some]
    congr 1 <;> omega
  · rw [Nat.min_eq_left (by omega), Option.getD_none]
    rfl

theorem scale_nanos_eq_iff (h : j < k) :
    (s.scale j).nanos = min longest.nanos (s.nanos * k) ↔ s.nanos = 0 ∨ longest.nanos ≤ s.nanos * j := by
  rw [scale_nanos]
  rcases Nat.eq_zero_or_pos s.nanos with zero | pos
  · simp [zero]
  · have grows : s.nanos * j < s.nanos * k := Nat.mul_lt_mul_of_pos_left h pos
    omega

end Span

namespace RetryPolicy

theorem pow_le_counterMax_iff : Nat.pow 2 n ≤ counterMax ↔ n < 32 := by
  constructor
  · intro h
    refine Nat.lt_of_not_le fun large => ?_
    have bound : Nat.pow 2 32 ≤ Nat.pow 2 n := Nat.pow_le_pow_right (by decide) large
    exact absurd (Nat.le_trans bound h) (by decide)
  · intro h
    have bound : Nat.pow 2 n ≤ Nat.pow 2 31 := Nat.pow_le_pow_right (by decide) (by omega)
    exact Nat.le_trans bound (by decide)

theorem delayBefore_succ (p : RetryPolicy) (n : Nat) :
    p.delayBefore (n + 1) = p.interval.scale (min (Nat.pow 2 n) counterMax) := by
  rw [delayBefore]
  split
  · rename_i fits
    rw [Nat.min_eq_left (pow_le_counterMax_iff.2 fits)]
  · rename_i large
    rw [Nat.min_eq_right (Nat.le_of_not_le (mt pow_le_counterMax_iff.1 large))]

theorem delayBefore_nanos_of_lt (p : RetryPolicy) (h : n < 32) :
    (p.delayBefore (n + 1)).nanos = min Span.longest.nanos (p.interval.nanos * Nat.pow 2 n) := by
  rw [delayBefore_succ, Nat.min_eq_left (pow_le_counterMax_iff.2 h), Span.scale_nanos]

theorem delayBefore_of_le (p : RetryPolicy) (h : 32 ≤ n) : p.delayBefore (n + 1) = p.interval.scale counterMax := by
  have large : ¬ Nat.pow 2 n ≤ counterMax := mt pow_le_counterMax_iff.1 (by omega)
  rw [delayBefore_succ, Nat.min_eq_right (Nat.le_of_not_le large)]

def FactorSuffices (p : RetryPolicy) : Prop :=
  p.interval.nanos = 0 ∨ Span.longest.nanos ≤ p.interval.nanos * counterMax

theorem delayBefore_doubled_iff (p : RetryPolicy) (n : Nat) :
    (p.delayBefore (n + 1)).nanos = min Span.longest.nanos (p.interval.nanos * Nat.pow 2 n) ↔
      n < 32 ∨ p.FactorSuffices := by
  by_cases small : n < 32
  · simp only [p.delayBefore_nanos_of_lt small, small, true_or]
  · have grows : counterMax < Nat.pow 2 n := Nat.lt_of_not_le (mt pow_le_counterMax_iff.1 small)
    rw [p.delayBefore_of_le (by omega), Span.scale_nanos_eq_iff grows]
    simp only [small, false_or, FactorSuffices]

theorem delayBefore_twice_iff (p : RetryPolicy) (n : Nat) :
    (p.delayBefore (n + 2)).nanos = min Span.longest.nanos (2 * (p.delayBefore (n + 1)).nanos) ↔
      n < 31 ∨ p.FactorSuffices := by
  have doubled : p.interval.nanos * Nat.pow 2 (n + 1) = 2 * (p.interval.nanos * Nat.pow 2 n) := by
    rw [show Nat.pow 2 (n + 1) = Nat.pow 2 n * 2 from rfl]
    ac_rfl
  by_cases small : n < 32
  · have next := p.delayBefore_doubled_iff (n + 1)
    rw [doubled] at next
    rw [p.delayBefore_nanos_of_lt small, show n < 31 ↔ n + 1 < 32 by omega, ← next]
    have capped : min Span.longest.nanos (2 * min Span.longest.nanos (p.interval.nanos * Nat.pow 2 n)) =
        min Span.longest.nanos (2 * (p.interval.nanos * Nat.pow 2 n)) := by omega
    rw [capped]
  · rw [p.delayBefore_of_le (by omega : 32 ≤ n), p.delayBefore_of_le (by omega : 32 ≤ n + 1), Span.scale_nanos]
    have positive : 0 < counterMax := by decide
    have none : p.interval.nanos * counterMax = 0 ↔ p.interval.nanos = 0 := by
      rw [Nat.mul_eq_zero]
      omega
    have longest : 0 < Span.longest.nanos := by decide
    unfold FactorSuffices
    omega

/-- There is no wait before the first attempt. Before another one the interval is multiplied part by part with a factor that
stays in 32 bits. What comes out is the interval times a power of two, bounded by the longest span, exactly if the power
has 32 bits itself or the largest factor suffices; and as far as that goes each wait is twice the one before. -/
theorem delays_double_iff (p : RetryPolicy) :
    p.delayBefore 0 = Span.zero ∧
    ∀ n,
      ((p.delayBefore (n + 1)).secs, (p.delayBefore (n + 1)).subsec) =
        (p.interval.multiplied? (min (Nat.pow 2 n) counterMax)).getD (Span.longest.secs, Span.longest.subsec) ∧
      ((p.delayBefore (n + 1)).nanos = min Span.longest.nanos (p.interval.nanos * Nat.pow 2 n) ↔
        n < 32 ∨ p.FactorSuffices) ∧
      ((p.delayBefore (n + 2)).nanos = min Span.longest.nanos (2 * (p.delayBefore (n + 1)).nanos) ↔
        n < 31 ∨ p.FactorSuffices) := by
  refine ⟨rfl, fun n => ⟨?_, p.delayBefore_doubled_iff n, p.delayBefore_twice_iff n⟩⟩
  rw [delayBefore_succ, Span.parts_scale]

/-- From one nanosecond on, the wait doubles up to 2^31 nanoseconds; the next one is 2^32 - 1, and so are all that follow. -/
example : ((⟨40, Span.ofNanos 1⟩ : RetryPolicy).delayBefore 32).nanos = 2147483648 ∧
    ((⟨40, Span.ofNanos 1⟩ : RetryPolicy).delayBefore 33).nanos = 4294967295 ∧
    ((⟨40, Span.ofNanos 1⟩ : RetryPolicy).delayBefore 34).nanos = 4294967295 := by decide

end RetryPolicy

end LedgerLoad
