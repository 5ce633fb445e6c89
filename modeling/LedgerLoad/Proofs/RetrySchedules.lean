import LedgerLoad.Connector
import LedgerLoad.Sink

/-!
When a connection is attempted.

Attempts are made one after the other, each behind its own wait, until one gives a pool or the policy allows no more.
The law of the whole loop is read off two steps: an attempt that gives a pool ends it, and one that fails hands its
error on to the rest.
-/

set_option autoImplicit false

namespace LedgerLoad

variable {ρ : Type}

namespace Attempt

def Gives (a : Attempt ρ) (pool : ρ) : Prop := a.opened = .ok pool ∧ a.verified = .ok ()

inductive Fails (a : Attempt ρ) (error : String) : Prop where
  | refused (opened : a.opened = .error error)
  | rejected {pool : ρ} (opened : a.opened = .ok pool) (verified : a.verified = .error error)

variable {a : Attempt ρ} {pool pool' : ρ} {error error' : String}

theorem gives_or_fails (a : Attempt ρ) : (∃ pool, a.Gives pool) ∨ ∃ error, a.Fails error := by
  cases opened : a.opened with
  | error error => exact .inr ⟨error, .refused opened⟩
  | ok pool =>
    cases verified : a.verified with
    | error error => exact .inr ⟨error, .rejected opened verified⟩
    | ok passed => exact .inl ⟨pool, opened, verified⟩

theorem Fails.not_gives (h : a.Fails error) : ¬ a.Gives pool := by
  rintro ⟨opened, verified⟩
  cases h with
  | refused refused => simp [opened] at refused
  | rejected _ rejected => simp [verified] at rejected

theorem Gives.unique (h : a.Gives pool) (h' : a.Gives pool') : pool = pool' := by
  have same := h.1.symm.trans h'.1
  simpa using same

theorem Fails.unique (h : a.Fails error) (h' : a.Fails error') : error = error' := by
  cases h with
  | refused opened =>
    cases h' with
    | refused opened' => simpa using opened.symm.trans opened'
    | rejected opened' _ => simp [opened] at opened'
  | rejected opened verified =>
    cases h' with
    | refused opened' => simp [opened] at opened'
    | rejected _ verified' => simpa using verified.symm.trans verified'

end Attempt

namespace ConnectorOp

def opens? : ConnectorOp ρ → Option Nat
  | .openPool k => some k
  | _ => none

def slept? : ConnectorOp ρ → Option Span
  | .sleep delay => some delay
  | _ => none

end ConnectorOp

namespace Connector

structure First (tape : Nat → Attempt ρ) (j : Nat) (pool : ρ) : Prop where
  gives : (tape j).Gives pool
  least : ∀ i < j, ∃ error, (tape i).Fails error

def wait (policy : RetryPolicy) (k : Nat) : List (ConnectorOp ρ) :=
  if (policy.delayBefore k).nanos = 0 then [] else [.sleep (policy.delayBefore k)]

def handling (tape : Nat → Attempt ρ) (k : Nat) : List (ConnectorOp ρ) :=
  .openPool k ::
    match (tape k).opened, (tape k).verified with
    | .error _, _ => []
    | .ok pool, .ok () => [.verify k pool]
    | .ok pool, .error _ => [.verify k pool, .release k pool]

def round (policy : RetryPolicy) (tape : Nat → Attempt ρ) (k : Nat) : List (ConnectorOp ρ) :=
  wait policy k ++ handling tape k

variable {policy : RetryPolicy} {tape : Nat → Attempt ρ} {k n left : Nat} {last : Option String} {pool : ρ}
  {error : String}

theorem pause_eq_wait : pause (ρ := ρ) policy k = wait policy k := by
  unfold pause wait Span.isZero
  simp only [beq_iff_eq]

/-! ### One attempt -/

theorem connectFrom_gives (h : (tape k).Gives pool) :
    connectFrom policy tape k last (left + 1) = (round policy tape k, .ok pool) := by
  obtain ⟨opened, verified⟩ := h
  simp only [connectFrom, attempt, round, handling, opened, verified, pause_eq_wait]

theorem connectFrom_fails (h : (tape k).Fails error) :
    connectFrom policy tape k last (left + 1) =
      (round policy tape k ++ (connectFrom policy tape (k + 1) (some error) left).1,
        (connectFrom policy tape (k + 1) (some error) left).2) := by
  cases h with
  | refused opened => simp only [connectFrom, attempt, round, handling, opened, pause_eq_wait]
  | rejected opened verified => simp only [connectFrom, attempt, round, handling, opened, verified, pause_eq_wait]

/-! ### All attempts -/

theorem connectFrom_first {j : Nat} (h : (tape j).Gives pool)
    (before : ∀ i, k ≤ i → i < j → ∃ error, (tape i).Fails error) (from_ : k ≤ j) (enough : j < k + left) :
    connectFrom policy tape k last left = ((List.range' k (j + 1 - k)).flatMap (round policy tape), .ok pool) := by
  induction left generalizing k last with
  | zero => omega
  | succ left ih =>
    obtain rfl | later : k = j ∨ k < j := by omega
    · rw [connectFrom_gives h, Nat.add_sub_cancel_left]
      simp
    · obtain ⟨error, failed⟩ := before k (Nat.le_refl k) later
      have count : j + 1 - k = (j + 1 - (k + 1)) + 1 := by omega
      rw [connectFrom_fails failed, ih (fun i hi => before i (by omega)) later (by omega), count, List.range'_succ,
        List.flatMap_cons]

theorem connectFrom_exhausted (fails : ∀ i, k ≤ i → i ≤ k + n → ∃ error, (tape i).Fails error)
    (h : (tape (k + n)).Fails error) : connectFrom policy tape k last (n + 1) =
      ((List.range' k (n + 1)).flatMap (round policy tape), .error ⟨policy.maxRetries, error⟩) := by
  induction n generalizing k last with
  | zero =>
    rw [Nat.add_zero] at h
    rw [connectFrom_fails h]
    simp [connectFrom]
  | succ n ih =>
    obtain ⟨first, failed⟩ := fails k (Nat.le_refl k) (by omega)
    have shift : k + (n + 1) = k + 1 + n := by omega
    rw [shift] at h
    rw [connectFrom_fails failed, ih (fun i hi bound => fails i (by omega) (by omega)) h, List.range'_succ (s := k),
      List.flatMap_cons]

/-- The loop ends with the first attempt that gives a pool, or else with the last that the policy allows. -/
theorem first_or_fails (tape : Nat → Attempt ρ) (n : Nat) :
    (∃ j pool, j < n ∧ First tape j pool) ∨ ∀ j < n, ∃ error, (tape j).Fails error := by
  induction n with
  | zero => exact .inr fun j hj => absurd hj (Nat.not_lt_zero j)
  | succ n ih =>
    obtain ⟨j, pool, hj, first⟩ | fails := ih
    · exact .inl ⟨j, pool, by omega, first⟩
    · obtain ⟨pool, gives⟩ | failed := (tape n).gives_or_fails
      · exact .inl ⟨n, pool, by omega, gives, fails⟩
      · refine .inr fun j hj => ?_
        obtain hj | rfl : j < n ∨ j = n := by omega
        · exact fails j hj
        · exact failed

theorem First.unique {i j : Nat} {pool' : ρ} (h : First tape i pool) (h' : First tape j pool') : i = j ∧ pool = pool' := by
  have order : ¬ i < j ∧ ¬ j < i := by
    constructor
    · intro hi
      obtain ⟨error, failed⟩ := h'.least i hi
      exact failed.not_gives h.gives
    · intro hj
      obtain ⟨error, failed⟩ := h.least j hj
      exact failed.not_gives h'.gives
  obtain rfl : i = j := by omega
  exact ⟨rfl, h.gives.unique h'.gives⟩

theorem attempts_pos (policy : RetryPolicy) : 0 < policy.attempts := by
  unfold RetryPolicy.attempts RetryPolicy.counterMax
  omega

theorem connectFrom_zero_first {j : Nat} (h : First tape j pool) (enough : j < policy.attempts) :
    connectFrom policy tape 0 last policy.attempts =
      ((List.range (j + 1)).flatMap (round policy tape), .ok pool) := by
  rw [connectFrom_first h.gives (fun i _ hi => h.least i hi) (Nat.zero_le j) (by omega), List.range_eq_range',
    Nat.sub_zero]

theorem connectFrom_zero_exhausted (fails : ∀ j < policy.attempts, ∃ error, (tape j).Fails error)
    (h : (tape (policy.attempts - 1)).Fails error) : connectFrom policy tape 0 last policy.attempts =
      ((List.range policy.attempts).flatMap (round policy tape), .error ⟨policy.maxRetries, error⟩) := by
  obtain ⟨n, hn⟩ : ∃ n, policy.attempts = n + 1 := ⟨policy.attempts - 1, by have := attempts_pos policy; omega⟩
  rw [hn, Nat.add_sub_cancel] at h
  rw [hn, List.range_eq_range']
  exact connectFrom_exhausted (fun i _ hi => fails i (by omega)) (by rwa [Nat.zero_add])

theorem connect_rounds (policy : RetryPolicy) (tape : Nat → Attempt ρ) :
    ∃ n, (connect policy tape).1 = (List.range n).flatMap (round policy tape) := by
  obtain ⟨j, pool, hj, first⟩ | fails := first_or_fails tape policy.attempts
  · exact ⟨j + 1, by rw [connect, connectFrom_zero_first first hj]⟩
  · obtain ⟨error, failed⟩ := fails (policy.attempts - 1) (by have := attempts_pos policy; omega)
    exact ⟨policy.attempts, by rw [connect, connectFrom_zero_exhausted fails failed]⟩

/-! ### Waits -/

theorem opens_round (k : Nat) : (round policy tape k).filterMap ConnectorOp.opens? = [k] := by
  unfold round wait handling
  split <;> split <;> rfl

theorem opens_rounds (n : Nat) : ((List.range n).flatMap (round policy tape)).filterMap ConnectorOp.opens? = List.range n := by
  induction n with
  | zero => rfl
  | succ n ih => simp [List.range_succ, List.flatMap_append, List.filterMap_append, ih, opens_round]

theorem totalNanos_append (xs ys : List Span) :
    Figures.totalNanos (xs ++ ys) = Figures.totalNanos xs + Figures.totalNanos ys := by
  induction xs with
  | nil => simp [Figures.totalNanos]
  | cons x xs ih =>
    change x.nanos + Figures.totalNanos (xs ++ ys) = x.nanos + Figures.totalNanos xs + Figures.totalNanos ys
    omega

theorem slept_round (k : Nat) :
    Figures.totalNanos ((round policy tape k).filterMap ConnectorOp.slept?) = (policy.delayBefore k).nanos := by
  unfold round wait handling
  split
  · rename_i none
    split <;> exact none.symm
  · split <;> rfl

theorem delayBefore_nanos (h : n < 32) (inRange : policy.interval.nanos * Nat.pow 2 n < Span.limit) :
    (policy.delayBefore (n + 1)).nanos = policy.interval.nanos * Nat.pow 2 n := by
  simp only [RetryPolicy.delayBefore, h, if_true]
  exact Span.ofNanos_of_lt inRange

/-- Waits that double add up to the one that would be next, less the first. -/
theorem slept_rounds (n : Nat) (h : n ≤ 32) (inRange : policy.interval.nanos * Nat.pow 2 (n - 1) < Span.limit) :
    Figures.totalNanos (((List.range (n + 1)).flatMap (round policy tape)).filterMap ConnectorOp.slept?) =
      policy.interval.nanos * (Nat.pow 2 n - 1) := by
  induction n with
  | zero =>
    have none : (policy.delayBefore 0).nanos = 0 := rfl
    simp [slept_round, none]
  | succ n ih =>
    have smaller : Nat.pow 2 (n - 1) ≤ Nat.pow 2 n := Nat.pow_le_pow_right (by decide) (by omega)
    have before := ih (by omega) (Nat.lt_of_le_of_lt (Nat.mul_le_mul_left _ smaller) inRange)
    have next : (policy.delayBefore (n + 1)).nanos = policy.interval.nanos * Nat.pow 2 n :=
      delayBefore_nanos (by omega) inRange
    have positive : 0 < Nat.pow 2 n := Nat.pow_pos (by decide)
    have double : Nat.pow 2 (n + 1) - 1 = (Nat.pow 2 n - 1) + Nat.pow 2 n := by
      have twice : Nat.pow 2 (n + 1) = Nat.pow 2 n * 2 := rfl
      omega
    rw [List.range_succ, List.flatMap_append, List.filterMap_append, totalNanos_append, before, List.flatMap_singleton,
      slept_round, next, double, Nat.mul_add]

/-! ### The law -/

/-- The attempts made are those up to the first that gives a pool, as far as the policy goes, each behind its own wait
and with nothing slept after the last. Their numbers, counted from 1, stay in 32 bits. The pool is that of the first
attempt that gives one; the error is that of the last attempt made, so what would be told if there had been none is
never seen. -/
theorem schedule_of_connection (policy : RetryPolicy) (tape : Nat → Attempt ρ) :
    policy.attempts = min (policy.maxRetries + 1) 0xFFFFFFFF ∧
    ∃ last,
      (∀ j pool, First tape j pool → last = min j (policy.attempts - 1)) ∧
      ((∀ j pool, ¬ First tape j pool) → last = policy.attempts - 1) ∧
      (connect policy tape).1 = (List.range (last + 1)).flatMap (round policy tape) ∧
      (connect policy tape).1.filterMap ConnectorOp.opens? = List.range (last + 1) ∧
      last + 1 ≤ 0xFFFFFFFF ∧
      (∀ pool, (connect policy tape).2 = .ok pool ↔ ∃ j < policy.attempts, First tape j pool) ∧
      (∀ e, (connect policy tape).2 = .error e ↔
        (∀ j < policy.attempts, ∀ pool, ¬ First tape j pool) ∧
          e.retries = policy.maxRetries ∧ (tape (policy.attempts - 1)).Fails e.source) ∧
      (∀ fallback, connectFrom policy tape 0 (some fallback) policy.attempts = connect policy tape) ∧
      (policy.maxRetries ≤ 32 → policy.interval.nanos * Nat.pow 2 (policy.maxRetries - 1) < Span.limit →
        last + 1 = policy.attempts →
        Figures.totalNanos ((connect policy tape).1.filterMap ConnectorOp.slept?) =
          policy.interval.nanos * (Nat.pow 2 policy.maxRetries - 1)) := by
  have positive := attempts_pos policy
  have bound : policy.attempts ≤ 0xFFFFFFFF := Nat.min_le_right ..
  have total : ∀ last, (connect policy tape).1 = (List.range (last + 1)).flatMap (round policy tape) →
      policy.maxRetries ≤ 32 → policy.interval.nanos * Nat.pow 2 (policy.maxRetries - 1) < Span.limit →
      last + 1 = policy.attempts →
      Figures.totalNanos ((connect policy tape).1.filterMap ConnectorOp.slept?) =
        policy.interval.nanos * (Nat.pow 2 policy.maxRetries - 1) := by
    intro last trace few inRange all
    obtain rfl : last = policy.maxRetries := by
      unfold RetryPolicy.attempts RetryPolicy.counterMax at all
      omega
    rw [trace, slept_rounds _ few inRange]
  refine ⟨rfl, ?_⟩
  obtain ⟨j, pool, hj, first⟩ | fails := first_or_fails tape policy.attempts
  · have outcome : connect policy tape = _ := connectFrom_zero_first first hj
    refine ⟨j, fun i pool' first' => ?_, fun none => absurd first (none j pool), by rw [outcome],
      by rw [outcome, opens_rounds], by omega, fun pool' => ?_, fun e => ?_,
      fun fallback => by rw [outcome, connectFrom_zero_first first hj], total j (by rw [outcome])⟩
    · have same := (first.unique first').1
      omega
    · rw [outcome]
      constructor
      · rintro ⟨⟩
        exact ⟨j, hj, first⟩
      · rintro ⟨i, _, first'⟩
        rw [(first.unique first').2]
    · rw [outcome]
      constructor
      · rintro ⟨⟩
      · rintro ⟨none, _⟩
        exact absurd first (none j hj pool)
  · obtain ⟨error, failed⟩ := fails (policy.attempts - 1) (by omega)
    have outcome : connect policy tape = _ := connectFrom_zero_exhausted fails failed
    have all : policy.attempts - 1 + 1 = policy.attempts := by omega
    have none : ∀ j < policy.attempts, ∀ pool, ¬ First tape j pool := by
      intro j hj pool first
      obtain ⟨error, failed⟩ := fails j hj
      exact failed.not_gives first.gives
    refine ⟨policy.attempts - 1, fun j pool first => ?_, fun _ => rfl, by rw [outcome, all],
      by rw [outcome, all, opens_rounds], by omega, fun pool => ?_, fun e => ?_,
      fun fallback => by rw [outcome, connectFrom_zero_exhausted fails failed], total _ (by rw [outcome, all])⟩
    · have beyond : ¬ j < policy.attempts := fun hj => none j hj pool first
      omega
    · rw [outcome]
      constructor
      · rintro ⟨⟩
      · rintro ⟨j, hj, first⟩
        exact absurd first (none j hj pool)
    · rw [outcome]
      constructor
      · rintro ⟨⟩
        exact ⟨none, rfl, failed⟩
      · rintro ⟨_, retries, failed'⟩
        cases e
        cases retries
        rw [failed.unique failed']

def hopeless (k : Nat) : Attempt Nat :=
  if k % 2 = 0 then { opened := .error s!"refused {k}" } else { opened := .ok k, verified := .error s!"stale {k}" }

theorem not_first_hopeless {j pool : Nat} : ¬ First hopeless j pool := by
  rintro ⟨⟨opened, verified⟩, _⟩
  unfold hopeless at opened verified
  split at opened
  · cases opened
  · rename_i odd
    simp [odd] at verified

/-- With 32 retries every factor of the wait is exact; the largest budget has one attempt less than it asks for. -/
theorem schedule_of_hopeless_connection :
    100000000 * Nat.pow 2 (32 - 1) < Span.limit ∧
    (connect ⟨32, Span.ofMillis 100⟩ hopeless).2 = .error ⟨32, "refused 32"⟩ ∧
    Figures.totalNanos ((connect ⟨32, Span.ofMillis 100⟩ hopeless).1.filterMap ConnectorOp.slept?) =
      100000000 * 4294967295 ∧
    (connect ⟨0xFFFFFFFF, Span.ofMillis 100⟩ hopeless).1.filterMap ConnectorOp.opens? = List.range 0xFFFFFFFF := by
  obtain ⟨_, last, _, ending, _, _, _, _, errors, _, total⟩ := schedule_of_connection ⟨32, Span.ofMillis 100⟩ hopeless
  have none := ending fun _ _ => not_first_hopeless
  obtain ⟨_, widest, _, ending', _, opens, _⟩ := schedule_of_connection ⟨0xFFFFFFFF, Span.ofMillis 100⟩ hopeless
  have all := ending' fun _ _ => not_first_hopeless
  refine ⟨by decide, (errors ⟨32, "refused 32"⟩).2 ⟨fun _ _ _ => not_first_hopeless, rfl, .refused rfl⟩,
    total (by decide) (by decide) (by rw [none]; rfl), ?_⟩
  rw [opens, all]
  rfl

end Connector

end LedgerLoad
