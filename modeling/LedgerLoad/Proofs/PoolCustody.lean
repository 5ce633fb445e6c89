import LedgerLoad.Proofs.RetrySchedules

/-!
What becomes of the pools that one connection opens.

A round of the loop that fails leaves no pool behind, so rounds can be put one behind the other and only the last can
leave one. Whatever part of the operations has been done, at most one pool is held.
-/

set_option autoImplicit false

namespace LedgerLoad

variable {ρ : Type}

namespace ConnectorOp

def attempt? : ConnectorOp ρ → Option Nat
  | .sleep _ => none
  | .openPool k => some k
  | .verify k _ => some k
  | .release k _ => some k

def verifies (k : Nat) : ConnectorOp ρ → Bool
  | .verify j _ => j == k
  | _ => false

def releases (k : Nat) : ConnectorOp ρ → Bool
  | .release j _ => j == k
  | _ => false

end ConnectorOp

namespace Connector

/-- The pools that are held after an operation, each with the attempt that opened it. -/
def hold (tape : Nat → Attempt ρ) (pools : List (Nat × ρ)) : ConnectorOp ρ → List (Nat × ρ)
  | .openPool k =>
    match (tape k).opened with
    | .ok pool => (k, pool) :: pools
    | .error _ => pools
  | .release k _ => pools.filter fun p => p.1 != k
  | _ => pools

def held (tape : Nat → Attempt ρ) (ops : List (ConnectorOp ρ)) : List (Nat × ρ) := ops.foldl (hold tape) []

/-- From the first pools on, never more than one is held while these operations are done, and then the last are. -/
inductive Keeps (tape : Nat → Attempt ρ) : List (Nat × ρ) → List (ConnectorOp ρ) → List (Nat × ρ) → Prop where
  | nil {pools : List (Nat × ρ)} (few : pools.length ≤ 1) : Keeps tape pools [] pools
  | cons {pools pools' : List (Nat × ρ)} {op : ConnectorOp ρ} {ops : List (ConnectorOp ρ)} (few : pools.length ≤ 1)
      (rest : Keeps tape (hold tape pools op) ops pools') : Keeps tape pools (op :: ops) pools'

/-- How the operations go on after a pool has been opened, and with which result they end. -/
inductive Follow (tape : Nat → Attempt ρ) (k : Nat) (pool : ρ) :
    List (ConnectorOp ρ) → Except ConnectionError ρ → Prop where
  | passed (verified : (tape k).verified = .ok ()) : Follow tape k pool [.verify k pool] (.ok pool)
  | failed {error : String} {later : List (ConnectorOp ρ)} {result : Except ConnectionError ρ}
      (verified : (tape k).verified = .error error) :
      Follow tape k pool (.verify k pool :: .release k pool :: later) result

variable {policy : RetryPolicy} {tape : Nat → Attempt ρ} {j k left n : Nat} {last : Option String} {pool : ρ}
  {error : String} {op : ConnectorOp ρ} {ops more done after : List (ConnectorOp ρ)}
  {pools pools' pools'' : List (Nat × ρ)}

/-! ### Holding -/

theorem Keeps.append (h : Keeps tape pools ops pools') (h' : Keeps tape pools' more pools'') :
    Keeps tape pools (ops ++ more) pools'' := by
  induction h with
  | nil _ => exact h'
  | cons few _ ih => exact .cons few (ih h')

theorem Keeps.along (h : Keeps tape pools ops pools') (begun : done <+: ops) :
    (done.foldl (hold tape) pools).length ≤ 1 := by
  induction h generalizing done with
  | nil few =>
    rw [List.prefix_nil.1 begun]
    exact few
  | cons few _ ih =>
    obtain rfl | ⟨rest, rfl, within⟩ := List.prefix_cons_iff.1 begun
    · exact few
    · exact ih within

theorem Keeps.foldl_eq (h : Keeps tape pools ops pools') : ops.foldl (hold tape) pools = pools' := by
  induction h with
  | nil _ => rfl
  | cons _ _ ih => exact ih

theorem hold_opened (opened : (tape k).opened = .ok pool) : hold tape [] (.openPool k) = [(k, pool)] := by
  simp [hold, opened]

theorem keeps_wait : Keeps tape [] (wait policy k) [] := by
  unfold wait
  split
  · exact .nil (Nat.zero_le 1)
  · exact .cons (Nat.zero_le 1) (.nil (Nat.zero_le 1))

theorem keeps_of_gives (h : (tape k).Gives pool) : Keeps tape [] (round policy tape k) [(k, pool)] := by
  obtain ⟨opened, verified⟩ := h
  refine keeps_wait.append ?_
  simp only [handling, opened, verified]
  refine .cons (Nat.zero_le 1) ?_
  rw [hold_opened opened]
  exact .cons (Nat.le_refl 1) (.nil (Nat.le_refl 1))

theorem keeps_of_fails (h : (tape k).Fails error) : Keeps tape [] (round policy tape k) [] := by
  refine keeps_wait.append ?_
  cases h with
  | refused opened =>
    have none : hold tape [] (.openPool k) = [] := by simp [hold, opened]
    simp only [handling, opened]
    refine .cons (Nat.zero_le 1) ?_
    rw [none]
    exact .nil (Nat.zero_le 1)
  | @rejected pool opened verified =>
    have verifying : hold tape [(k, pool)] (.verify k pool) = [(k, pool)] := rfl
    have released : hold tape [(k, pool)] (.release k pool) = [] := by simp [hold]
    simp only [handling, opened, verified]
    refine .cons (Nat.zero_le 1) ?_
    rw [hold_opened opened]
    refine .cons (Nat.le_refl 1) ?_
    refine .cons (Nat.le_refl 1) ?_
    rw [verifying, released]
    exact .nil (Nat.zero_le 1)

theorem connectFrom_keeps (policy : RetryPolicy) (tape : Nat → Attempt ρ) (k : Nat) (last : Option String) (left : Nat) :
    ∃ pools, Keeps tape [] (connectFrom policy tape k last left).1 pools ∧
      (∀ e, (connectFrom policy tape k last left).2 = .error e → pools = []) ∧
      ∀ pool, (connectFrom policy tape k last left).2 = .ok pool → ∃ j, (tape j).Gives pool ∧ pools = [(j, pool)] := by
  induction left generalizing k last with
  | zero => exact ⟨[], .nil (Nat.zero_le 1), fun _ _ => rfl, fun _ given => nomatch given⟩
  | succ left ih =>
    obtain ⟨pool, gives⟩ | ⟨error, failed⟩ := (tape k).gives_or_fails
    · rw [connectFrom_gives gives]
      refine ⟨[(k, pool)], keeps_of_gives gives, ?_, ?_⟩
      · rintro e ⟨⟩
      · rintro pool' ⟨⟩
        exact ⟨k, gives, rfl⟩
    · rw [connectFrom_fails failed]
      obtain ⟨pools, keeps, result⟩ := ih (k + 1) (some error)
      exact ⟨pools, (keeps_of_fails failed).append keeps, result⟩

/-! ### From one operation to the next -/

theorem suffix_round (h : .openPool j :: after <:+ round policy tape k) :
    j = k ∧ .openPool j :: after = handling tape k := by
  unfold round wait handling at h
  unfold handling
  split at h <;> split at h <;> simp_all [List.suffix_cons_iff]

/-- An end of two parts that begins with an opening lies in the second part or begins in the first. -/
theorem suffix_append_cases (h : .openPool j :: after <:+ ops ++ more) :
    .openPool j :: after <:+ more ∨ ∃ rest, .openPool j :: rest <:+ ops ∧ after = rest ++ more := by
  obtain ⟨before, same⟩ := h
  obtain ⟨rest, front, later⟩ | ⟨rest, front, later⟩ := List.append_eq_append_iff.1 same
  · cases rest with
    | nil => exact .inl ⟨[], later⟩
    | cons op rest =>
      injection later with first tail
      subst first
      exact .inr ⟨rest, ⟨before, front.symm⟩, tail⟩
  · exact .inl ⟨rest, later.symm⟩

theorem connectFrom_follow (opened : (tape j).opened = .ok pool)
    (h : .openPool j :: after <:+ (connectFrom policy tape k last left).1) :
    Follow tape j pool after (connectFrom policy tape k last left).2 := by
  induction left generalizing k last with
  | zero => simp [connectFrom] at h
  | succ left ih =>
    obtain ⟨pool', gives⟩ | ⟨error, failed⟩ := (tape k).gives_or_fails
    · rw [connectFrom_gives gives] at h ⊢
      obtain ⟨rfl, same⟩ := suffix_round h
      obtain ⟨opened', verified⟩ := gives
      simp only [opened] at opened'
      cases opened'
      simp only [handling, opened, verified] at same
      cases same
      exact .passed verified
    · rw [connectFrom_fails failed] at h ⊢
      obtain later | ⟨rest, now, rfl⟩ := suffix_append_cases h
      · exact ih later
      · obtain ⟨rfl, same⟩ := suffix_round now
        cases failed with
        | refused none => simp [opened] at none
        | rejected _ verified =>
          simp only [handling, opened, verified] at same
          cases same
          exact .failed verified

/-! ### Once each -/

theorem filter_round : (round policy tape k).filter (fun op => op.attempt? == some j) =
    if k = j then handling tape j else [] := by
  unfold round wait handling
  by_cases same : k = j
  · subst same
    split <;> split <;> simp [ConnectorOp.attempt?]
  · split <;> split <;> simp [ConnectorOp.attempt?, same]

theorem filter_rounds (n : Nat) :
    ((List.range n).flatMap (round policy tape)).filter (fun op => op.attempt? == some j) =
      if j < n then handling tape j else [] := by
  induction n with
  | zero => rfl
  | succ n ih =>
    rw [List.range_succ, List.flatMap_append, List.flatMap_singleton, List.filter_append, ih, filter_round]
    obtain before | rfl | after : j < n ∨ n = j ∨ n < j := by omega
    · have apart : n ≠ j := by omega
      have within : j < n + 1 := by omega
      simp [before, apart, within]
    · simp
    · have apart : n ≠ j := by omega
      have outside : ¬ j < n := by omega
      have outside' : ¬ j < n + 1 := by omega
      simp [apart, outside, outside']

theorem mem_rounds (served : op.attempt? = some j) :
    op ∈ (List.range n).flatMap (round policy tape) ↔ j < n ∧ op ∈ handling tape j := by
  have kept : op ∈ (List.range n).flatMap (round policy tape) ↔
      op ∈ ((List.range n).flatMap (round policy tape)).filter (fun op => op.attempt? == some j) := by
    simp [List.mem_filter, served]
  rw [kept, filter_rounds]
  split <;> simp [*]

theorem countP_rounds {p : ConnectorOp ρ → Bool} (served : ∀ op, p op = true → op.attempt? = some j) (hj : j < n) :
    ((List.range n).flatMap (round policy tape)).countP p = (handling tape j).countP p := by
  have only : (fun op => p op && op.attempt? == some j) = p := by
    funext op
    cases h : p op with
    | false => rfl
    | true => simp [served op h]
  have kept := List.countP_filter (p := p) (q := fun op => op.attempt? == some j)
    (l := (List.range n).flatMap (round policy tape))
  rw [only, filter_rounds, if_pos hj] at kept
  exact kept.symm

/-! ### The law -/

/-- Each pool that is opened is verified at once and once. One that fails is released right after that, once; one that
passes ends the connection, is its result, and is never released; nothing else ever is. So at most one pool is held at
any time: none after a failed connection, and the returned one after any other. -/
theorem custody_of_connection (policy : RetryPolicy) (tape : Nat → Attempt ρ) :
    ((connect policy tape).1.filterMap ConnectorOp.opens?).Nodup ∧
    (∀ k pool after, .openPool k :: after <:+ (connect policy tape).1 → (tape k).opened = .ok pool →
      Follow tape k pool after (connect policy tape).2) ∧
    (∀ k pool, .openPool k ∈ (connect policy tape).1 → (tape k).opened = .ok pool →
      (connect policy tape).1.countP (·.verifies k) = 1 ∧
      (connect policy tape).1.countP (·.releases k) = if (tape k).verified.isOk then 0 else 1) ∧
    (∀ k pool, .verify k pool ∈ (connect policy tape).1 →
      .openPool k ∈ (connect policy tape).1 ∧ (tape k).opened = .ok pool) ∧
    (∀ k pool, .release k pool ∈ (connect policy tape).1 →
      .openPool k ∈ (connect policy tape).1 ∧ (tape k).opened = .ok pool ∧ ∃ error, (tape k).verified = .error error) ∧
    (∀ done, done <+: (connect policy tape).1 → (held tape done).length ≤ 1) ∧
    (∀ e, (connect policy tape).2 = .error e → held tape (connect policy tape).1 = []) ∧
    ∀ pool, (connect policy tape).2 = .ok pool →
      ∃ k, (tape k).Gives pool ∧ held tape (connect policy tape).1 = [(k, pool)] := by
  obtain ⟨n, rounds⟩ := connect_rounds policy tape
  obtain ⟨pools, keeps, none, one⟩ := connectFrom_keeps policy tape 0 none policy.attempts
  have opening : ∀ {k : Nat}, k < n → .openPool k ∈ (List.range n).flatMap (round policy tape) := fun hk =>
    (mem_rounds rfl).2 ⟨hk, List.mem_cons_self⟩
  refine ⟨?_, fun k pool after rest opened => connectFrom_follow opened rest, ?_, ?_, ?_,
    fun done begun => keeps.along begun, ?_, ?_⟩
  · rw [rounds, opens_rounds]
    exact List.nodup_range
  · intro k pool opening opened
    rw [rounds] at opening ⊢
    obtain ⟨hk, _⟩ := (mem_rounds rfl).1 opening
    rw [countP_rounds (by intro op; cases op <;> simp [ConnectorOp.verifies, ConnectorOp.attempt?]) hk,
      countP_rounds (by intro op; cases op <;> simp [ConnectorOp.releases, ConnectorOp.attempt?]) hk]
    cases verified : (tape k).verified with
    | ok passed => simp [handling, opened, verified, ConnectorOp.verifies, ConnectorOp.releases, Except.isOk, Except.toBool]
    | error e => simp [handling, opened, verified, ConnectorOp.verifies, ConnectorOp.releases, Except.isOk, Except.toBool]
  · intro k pool verifying
    rw [rounds] at verifying ⊢
    obtain ⟨hk, mine⟩ := (mem_rounds rfl).1 verifying
    refine ⟨opening hk, ?_⟩
    unfold handling at mine
    split at mine <;> simp_all
  · intro k pool releasing
    rw [rounds] at releasing ⊢
    obtain ⟨hk, mine⟩ := (mem_rounds rfl).1 releasing
    refine ⟨opening hk, ?_⟩
    unfold handling at mine
    split at mine <;> simp_all
  · intro e failed
    rw [← none e failed]
    exact keeps.foldl_eq
  · intro pool given
    obtain ⟨k, gives, rfl⟩ := one pool given
    exact ⟨k, gives, keeps.foldl_eq⟩

def third (k : Nat) : Attempt Nat :=
  if k = 0 then { opened := .error "refused" }
  else if k = 1 then { opened := .ok 1, verified := .error "stale" }
  else { opened := .ok k }

theorem custody_of_third_pool :
    .openPool 1 ∈ (connect ⟨3, Span.ofMillis 100⟩ third).1 ∧
    (connect ⟨3, Span.ofMillis 100⟩ third).1.countP (·.releases 1) = 1 ∧
    (connect ⟨3, Span.ofMillis 100⟩ third).2 = .ok 2 ∧
    ∃ k, (third k).Gives 2 ∧ held third (connect ⟨3, Span.ofMillis 100⟩ third).1 = [(k, 2)] := by
  have opening : .openPool 1 ∈ (connect ⟨3, Span.ofMillis 100⟩ third).1 := by decide
  have result : (connect ⟨3, Span.ofMillis 100⟩ third).2 = .ok 2 := rfl
  obtain ⟨_, _, once, _, _, _, _, one⟩ := custody_of_connection ⟨3, Span.ofMillis 100⟩ third
  exact ⟨opening, (once 1 1 opening rfl).2, result, one 2 result⟩

end Connector

end LedgerLoad
