import Mathlib.Algebra.BigOperators.Group.Finset.Basic
import Mathlib.Order.Bounds.Basic
import LedgerLoad.Proofs.RunnerWindow

/-!
A balance worker as a closed loop.

The target takes a given time over each call of a worker, and no time passes but while a call is in flight. Then the loop
is a sum: the next call begins where the ones before it have ended, and it begins at all only as long as that is before the
deadline and before the stop.
-/

set_option autoImplicit false

namespace LedgerLoad.Load

def spent (ℓ : ℕ → ℕ) (n : ℕ) : ℕ := ∑ j ∈ Finset.range n, ℓ j

theorem spent_succ (ℓ : ℕ → ℕ) (n : ℕ) : spent ℓ (n + 1) = spent ℓ n + ℓ n := Finset.sum_range_succ ℓ n

theorem spent_mono {ℓ : ℕ → ℕ} {m n : ℕ} (h : m ≤ n) : spent ℓ m ≤ spent ℓ n := by
  refine monotone_nat_of_le_succ (fun j => ?_) h
  rw [spent_succ]
  exact Nat.le_add_right _ _

/-- No call begins at this instant or later: the deadline, or the stop if that comes first. -/
def bound (deadline : ℕ) (stop : Option ℕ) : ℕ := stop.elim deadline (min deadline)

theorem lt_bound_iff {d t : ℕ} {stop : Option ℕ} : t < bound d stop ↔ t < d ∧ ∀ s, stop = some s → t < s := by
  cases stop with
  | none => simp [bound]
  | some s => simp [bound]

def steps (i : ℕ) (as : List Action) : ℕ := as.countP fun a => a.worker? == some i

theorem steps_concat_own {i : ℕ} {as : List Action} {a : Action} (h : a.worker? = some i) :
    steps i (as ++ [a]) = steps i as + 1 := by
  simp [steps, List.countP_append, h]

theorem steps_concat_other {i : ℕ} {as : List Action} {a : Action} (h : a.worker? ≠ some i) :
    steps i (as ++ [a]) = steps i as := by
  simp [steps, List.countP_append, h]

theorem map_start_close {i : ℕ} {ending : Ending} (cs : List Call) :
    (cs.map (Call.close i ending)).map Call.start = cs.map Call.start := by
  rw [List.map_map]
  refine List.map_congr_left fun c _ => ?_
  simp only [Function.comp_apply, Call.close]
  split <;> rfl

namespace World

variable {u v v' w w' : World} {a : Action} {as bs : List Action} {i j k m n c s b : ℕ} {x : Worker} {e : Effect}
  {r : RunCall} {accounts : List String} {ℓ : ℕ → ℕ} {stop : Option ℕ}

def callsOf (i : ℕ) (w : World) : List Call := (calls (own i w.log)).reverse

/-! ### Schedules in step with a target -/

/-- What an action has to be like if the `j`-th call of worker `i` is to take `ℓ j`, and no time to pass otherwise. -/
def InStep (ℓ : ℕ → ℕ) (i : ℕ) (w : World) : Action → Prop
  | .pass n => w.sink.window.start ≠ none → ∃ x, w.workers[i]? = some x ∧ (x.terminated = true ∨
      ∃ account since, x = .balance (.calling account since) ∧ w.now + n ≤ since + ℓ ((callsOf i w).length - 1))
  | .answer j _ => j = i → ∀ account since, w.workers[i]? = some (.balance (.calling account since)) →
      w.now = since + ℓ ((callsOf i w).length - 1)
  | _ => True

/-- From the opening of the window on, time passes only while a call of worker `i` is in flight or the worker is gone, and
the `j`-th of its calls takes `ℓ j`. -/
def Paced (u : World) (as : List Action) (i : ℕ) (ℓ : ℕ → ℕ) : Prop :=
  ∀ v a v', u.Takes as v a v' → v.InStep ℓ i a

/-- The stop flag is as it must be if the stop is requested at an instant. At that instant itself it may be either way. -/
structure Flagged (stop : Option ℕ) (w : World) : Prop where
  requested : w.stopped = true → ∃ t, stop = some t ∧ t ≤ w.now
  noticed : ∀ t, stop = some t → t < w.now → w.stopped = true

def StopsAt (u : World) (as : List Action) (stop : Option ℕ) : Prop := ∀ v, u.Visits as v → v.Flagged stop

theorem paced_concat (hb : u.run bs = some v) (hs : Happens v a v') :
    u.Paced (bs ++ [a]) i ℓ ↔ u.Paced bs i ℓ ∧ v.InStep ℓ i a := by
  have taken := step_of_happens hs
  constructor
  · intro paced
    exact ⟨fun x b x' ht => paced x b x' ((takes_concat hb taken).2 (.inl ht)),
      paced v a v' ((takes_concat hb taken).2 (.inr ⟨rfl, rfl, rfl⟩))⟩
  · rintro ⟨paced, inStep⟩ x b x' ht
    rcases (takes_concat hb taken).1 ht with ht | ⟨rfl, rfl, rfl⟩
    · exact paced x b x' ht
    · exact inStep

theorem visits_concat (hb : u.run bs = some v) (hs : Happens v a v') :
    u.Visits (bs ++ [a]) w ↔ u.Visits bs w ∨ w = v' := by
  constructor
  · rintro ⟨cs, ds, he, hw⟩
    rcases List.eq_nil_or_concat ds with rfl | ⟨es, d, rfl⟩
    · rw [List.append_nil] at he
      rw [← he, run_concat hb (step_of_happens hs)] at hw
      exact .inr (Option.some.inj hw).symm
    · have same : bs ++ [a] = (cs ++ es) ++ [d] := by rw [he]; simp
      exact .inl ⟨cs, es, (List.append_inj' same rfl).1, hw⟩
  · rintro (⟨cs, ds, rfl, hw⟩ | rfl)
    · exact ⟨cs, ds ++ [a], by simp, hw⟩
    · exact ⟨bs ++ [a], [], by simp, run_concat hb (step_of_happens hs)⟩

theorem stopsAt_concat (hb : u.run bs = some v) (hs : Happens v a v') :
    u.StopsAt (bs ++ [a]) stop ↔ u.StopsAt bs stop ∧ v'.Flagged stop := by
  constructor
  · intro stops
    exact ⟨fun x hx => stops x ((visits_concat hb hs).2 (.inl hx)), stops v' ((visits_concat hb hs).2 (.inr rfl))⟩
  · rintro ⟨stops, last⟩ x hx
    rcases (visits_concat hb hs).1 hx with hx | rfl
    · exact stops x hx
    · exact last

theorem visits_last (h : u.run as = some w) : u.Visits as w := ⟨as, [], by simp, h⟩

theorem now_of_paced (h : (initial accounts).run as = some w) (cl : w.ClaimedBy k r) (paced : (initial accounts).Paced as i ℓ)
    (begun : r.phase.begun = true) (unstaffed : r.phase.staffed = false) : w.deadline = w.now + r.config.duration.nanos := by
  refine claim_induction (P := fun bs v p => (initial accounts).Paced bs i ℓ → p.begun = true → p.staffed = false →
    v.deadline = v.now + r.config.duration.nanos) h cl ?_ ?_ paced begun unstaffed
  · intro bs v pool _ _ _ begun
    cases begun
  · intro bs v a v' p q hb hs cl step ih paced begun unstaffed
    obtain ⟨paced, inStep⟩ := (paced_concat hb hs).1 paced
    cases step with
    | quiet _ hq _ same staffed _ =>
      rw [same] at begun
      rw [staffed] at unstaffed
      have before := ih paced begun unstaffed
      have now : v'.now = v.now := by
        refine now_step hs ?_
        rintro n rfl
        obtain ⟨t, ht, _⟩ := (cl.standing.opened begun).start
        obtain ⟨x, hx, _⟩ := inStep (by rw [ht]; simp)
        exact (cl.standing.unstaffed unstaffed).vacant hx
      rw [hq.deadline, now, before]
    | begins early hp => rfl
    | staffs early hp => cases unstaffed
    | ends early hp => cases unstaffed
    | works hx hw => exact ((cl.standing.unstaffed unstaffed).vacant hx).elim

/-! ### The loop -/

/-- Where a worker is that has made `c` calls, `m` of them over, in so many steps. -/
def Place (ℓ : ℕ → ℕ) (stop : Option ℕ) (s b : ℕ) (w : World) (i m c taken : ℕ) : Worker → Prop
  | .balance .start => c = m ∧ w.now = s + spent ℓ m ∧ taken = 5 * m
  | .balance .unstopped =>
    c = m ∧ w.now = s + spent ℓ m ∧ taken = 5 * m + 1 ∧ ∀ t, stop = some t → s + spent ℓ m < t
  | .balance .drawing => c = m ∧ w.now = s + spent ℓ m ∧ taken = 5 * m + 2 ∧ s + spent ℓ m < b
  | .balance (.calling _ since) => c = m + 1 ∧ since = s + spent ℓ m ∧ taken = 5 * m + 3 ∧ w.now ≤ s + spent ℓ c
  | .recordingBalance _ _ => c = m ∧ w.now = s + spent ℓ m ∧ taken + 1 = 5 * m
  | .finished why => c = m ∧ b ≤ s + spent ℓ m ∧ taken ≤ 5 * m + 2 ∧
      (∀ t, .ended i t ∈ own i w.log ↔ t = s + spent ℓ m) ∧
      (why = .requestedCancellation ∧ (∃ t, stop = some t ∧ t < s + spent ℓ m) ∨
        why = .elapsed ∧ ∀ t, stop = some t → s + spent ℓ m < t)
  | .faulted _ => m ≤ c ∧ taken ≤ 5 * m + 4 ∧ s + spent ℓ m < b
  | .stream _ | .recordingStream _ _ => False

/-- Worker `i` has made `c` calls, each where the ones before it ended and none at the bound `b` or later. `m` of them are
over, and each came to a sample of its length. -/
structure Loops (accounts : List String) (as : List Action) (ℓ : ℕ → ℕ) (stop : Option ℕ) (s b : ℕ) (w : World)
    (i : ℕ) (x : Worker) (m c : ℕ) : Prop where
  samples : (yields i (initial accounts) as).map (·.latency) = (List.range m).map fun j => Span.ofNanos (ℓ j)
  starts : (callsOf i w).map (·.start) = (List.range c).map fun j => s + spent ℓ j
  early : ∀ j < c, s + spent ℓ j < b
  place : Place ℓ stop s b w i m c (steps i as) x

variable {taken : ℕ}

/-- What a worker finds when others go on: time has passed only if it was waiting for its call or gone. -/
theorem Place.waits (h : Place ℓ stop s b v i m c taken x) (log : own i v'.log = own i v.log)
    (time : v'.now = v.now ∨ x.terminated = true ∨
      ∃ account since, x = .balance (.calling account since) ∧ v'.now ≤ s + spent ℓ c) :
    Place ℓ stop s b v' i m c taken x := by
  rcases time with same | gone | ⟨account, since, rfl, within⟩
  · cases x with
    | balance p => cases p <;> simpa only [Place, same] using h
    | recordingBalance sample p => simpa only [Place, same] using h
    | finished why => simpa only [Place, log] using h
    | faulted fault | stream p | recordingStream sample p => exact h
  · cases x with
    | finished why => simpa only [Place, log] using h
    | faulted fault => exact h
    | _ => cases gone
  · exact ⟨h.1, h.2.1, h.2.2.1, within⟩

theorem yields_own (hb : (initial accounts).run bs = some v) (hx : v.workers[i]? = some x) (hw : WorkerStep v i x a e) :
    yields i (initial accounts) (bs ++ [a]) = yields i (initial accounts) bs ++ e.worker.carried.toList := by
  rw [yields_concat hb (step_of_happens (.worked hx hw)), if_pos hw.worker, workers_affect hx, if_pos rfl]
  rfl

theorem callsOf_own (hw : WorkerStep v i x a e) :
    callsOf i (v.affect i e) = (calls (e.entries ++ own i v.log)).reverse := by
  have entries : own i (v.affect i e).log = e.entries ++ own i v.log := own_append_own hw.entries_own
  rw [callsOf, entries]

theorem Loops.length (h : Loops accounts as ℓ stop s b w i x m c) : (callsOf i w).length = c := by
  have both := congrArg List.length h.starts
  simpa using both

theorem Loops.silent (h : Loops accounts bs ℓ stop s b v i x m c) (hb : (initial accounts).run bs = some v)
    (hx : v.workers[i]? = some x) (hw : WorkerStep v i x a e) (unladen : e.worker.carried = none)
    (same : calls (e.entries ++ own i v.log) = calls (own i v.log))
    (place : Place ℓ stop s b (v.affect i e) i m c (steps i bs + 1) e.worker) :
    Loops accounts (bs ++ [a]) ℓ stop s b (v.affect i e) i e.worker m c := by
  refine ⟨?_, ?_, h.early, ?_⟩
  · rw [yields_own hb hx hw, unladen, Option.toList_none, List.append_nil]
    exact h.samples
  · rw [callsOf_own hw, same]
    exact h.starts
  · rw [steps_concat_own hw.worker]
    exact place

theorem ended_own (hb : (initial accounts).run bs = some v) (hx : v.workers[i]? = some x) (hw : WorkerStep v i x a e)
    (ends : e.entries = [.ended i v.now]) (t : ℕ) : .ended i t ∈ own i (v.affect i e).log ↔ t = v.now := by
  have entries : own i (v.affect i e).log = e.entries ++ own i v.log := own_append_own hw.entries_own
  have before : .ended i t ∉ own i v.log := by
    intro he
    rcases orderly_of_run hb with unclaimed | ⟨k, r, cl⟩
    · exact unclaimed.unstaffed.vacant hx
    · have gone := (gone_iff_ended hb cl hx).2 ⟨t, he⟩
      rw [hw.live] at gone
      cases gone
  rw [entries, ends, List.cons_append, List.nil_append, List.mem_cons, Entry.ended.injEq]
  simp [before]

theorem latency_replySample {since at_ : ℕ} {reply : Except TargetError Unit} :
    (replySample since at_ reply).latency = Span.between since at_ := by
  cases reply <;> rfl

theorem BalanceStep.loops (h : BalanceStep v i x a e) (serves : x.serves .balance = true)
    (hb : (initial accounts).run bs = some v) (hx : v.workers[i]? = some x) (inStep : v.InStep ℓ i a)
    (flag : v.Flagged stop) (aside : ∀ t, stop = some t → ∀ j, t ≠ s + spent ℓ j)
    (loops : Loops accounts bs ℓ stop s (bound v.deadline stop) v i x m c) :
    ∃ m' c', Loops accounts (bs ++ [a]) ℓ stop s (bound v.deadline stop) (v.affect i e) i e.worker m' c' := by
  have hw : WorkerStep v i x a e := .inl h
  have place := loops.place
  cases h with
  | cancels stopped =>
    obtain ⟨rfl, now, count⟩ := place
    obtain ⟨t, rfl, before⟩ := flag.requested stopped
    have other := aside t rfl c
    refine ⟨c, c, loops.silent hb hx hw rfl rfl ⟨rfl, ?_, by omega, ?_, .inl ⟨rfl, t, rfl, by omega⟩⟩⟩
    · simp only [bound, Option.elim_some]
      omega
    · rw [← now]
      exact ended_own hb hx hw rfl
  | passesFlag unstopped =>
    obtain ⟨rfl, now, count⟩ := place
    refine ⟨c, c, loops.silent hb hx hw rfl rfl ⟨rfl, now, by omega, fun t ht => ?_⟩⟩
    have other := aside t ht c
    by_contra late
    rw [flag.noticed t ht (by omega)] at unstopped
    cases unstopped
  | elapses late =>
    obtain ⟨rfl, now, count, ahead⟩ := place
    refine ⟨c, c, loops.silent hb hx hw rfl rfl ⟨rfl, ?_, by omega, ?_, .inr ⟨rfl, ahead⟩⟩⟩
    · by_contra early
      have := (lt_bound_iff.1 (Nat.lt_of_not_le early)).1
      omega
    · rw [← now]
      exact ended_own hb hx hw rfl
  | passesClock soon =>
    obtain ⟨rfl, now, count, ahead⟩ := place
    exact ⟨c, c, loops.silent hb hx hw rfl rfl ⟨rfl, now, by omega, lt_bound_iff.2 ⟨by omega, ahead⟩⟩⟩
  | findsPoison n hp hl =>
    obtain ⟨rfl, now, count, early⟩ := place
    exact ⟨c, c, loops.silent hb hx hw rfl rfl ⟨Nat.le_refl c, by omega, early⟩⟩
  | drawsNothing n hp hn hl =>
    obtain ⟨rfl, now, count, early⟩ := place
    exact ⟨c, c, loops.silent hb hx hw rfl rfl ⟨Nat.le_refl c, by omega, early⟩⟩
  | @calls n pool account hp hn hl =>
    obtain ⟨rfl, now, count, early⟩ := place
    refine ⟨c, c + 1, ?_, ?_, ?_, ?_⟩
    · rw [yields_own hb hx hw]
      exact (congrArg _ (List.append_nil _)).trans loops.samples
    · have starts := loops.starts
      rw [callsOf] at starts
      rw [callsOf_own hw]
      change ((({ worker := i, account := account, start := v.now } : Call) :: Load.calls (own i v.log)).reverse).map _ = _
      rw [List.reverse_cons, List.map_append, starts, List.range_succ, List.map_append, now]
      rfl
    · intro j hj
      rcases Nat.lt_succ_iff_lt_or_eq.1 hj with before | rfl
      · exact loops.early j before
      · exact early
    · rw [steps_concat_own hw.worker, count]
      refine ⟨rfl, now, rfl, ?_⟩
      change v.now ≤ _
      rw [now, spent_succ]
      omega
  | answered account since reply =>
    obtain ⟨rfl, rfl, count, within⟩ := place
    have now : v.now = s + spent ℓ m + ℓ ((callsOf i v).length - 1) := inStep rfl account _ hx
    rw [loops.length, Nat.add_sub_cancel, Nat.add_assoc, ← spent_succ] at now
    refine ⟨m + 1, m + 1, ?_, ?_, loops.early, ?_⟩
    · have span : Span.between (s + spent ℓ m) v.now = Span.ofNanos (ℓ m) := by
        rw [Span.between, now, spent_succ]
        congr 1
        omega
      rw [yields_own hb hx hw, List.map_append, loops.samples, List.range_succ, List.map_append]
      change _ ++ [(replySample _ v.now reply).latency] = _
      rw [latency_replySample, span]
      rfl
    · have starts := loops.starts
      rw [callsOf, List.map_reverse] at starts
      rw [callsOf_own hw, List.map_reverse]
      change (((Load.calls (own i v.log)).map _).map Call.start).reverse = _
      rw [map_start_close]
      exact starts
    · rw [steps_concat_own hw.worker, count]
      exact ⟨rfl, now, by omega⟩
  | panics account since =>
    obtain ⟨rfl, rfl, count, within⟩ := place
    refine ⟨m, m + 1, ?_, ?_, loops.early, ?_⟩
    · rw [yields_own hb hx hw]
      exact (congrArg _ (List.append_nil _)).trans loops.samples
    · have starts := loops.starts
      rw [callsOf, List.map_reverse] at starts
      rw [callsOf_own hw, List.map_reverse]
      change (((Load.calls (own i v.log)).map _).map Call.start).reverse = _
      rw [map_start_close]
      exact starts
    · rw [steps_concat_own hw.worker, count]
      exact ⟨Nat.le_succ m, by omega, loops.early m (Nat.lt_succ_self m)⟩
  | records sample p =>
    cases p <;> cases serves
    obtain ⟨rfl, now, count⟩ := place
    exact ⟨c, c, loops.silent hb hx hw rfl rfl ⟨rfl, now, by omega⟩⟩

theorem steps_of_vacant (i : ℕ) (h : (initial accounts).run as = some w) (vacant : w.workers = #[]) : steps i as = 0 := by
  refine run_induction (P := fun bs v => v.workers = #[] → steps i bs = 0) (fun _ => rfl) ?_ h vacant
  intro bs v a v' hb ih hs vacant
  rcases (orderly_of_run hb).cases hs with ⟨idle, quiet | sets⟩ | ⟨j, x, e, _, hx, _, rfl⟩
  · rw [steps_concat_other (by simp [idle])]
    exact ih (quiet.workers.symm.trans vacant)
  · rw [steps_concat_other (by simp [idle])]
    exact ih sets.empty.workers
  · have own := workers_affect (j := j) (e := e) hx
    rw [vacant, if_pos rfl] at own
    cases own

theorem Loops.waits (h : Loops accounts bs ℓ stop s b v i x m c) (hb : (initial accounts).run bs = some v)
    (hs : Happens v a v') (apart : Apart i a v v') (hx : v.workers[i]? = some x) (inStep : v.InStep ℓ i a) :
    Loops accounts (bs ++ [a]) ℓ stop s b v' i x m c := by
  refine ⟨?_, ?_, h.early, ?_⟩
  · rw [yields_concat hb (step_of_happens hs), if_neg apart.idle, List.append_nil]
    exact h.samples
  · rw [callsOf, apart.own]
    exact h.starts
  · rw [steps_concat_other apart.idle]
    refine h.place.waits apart.own ?_
    by_cases pass : ∃ n, a = .pass n
    · obtain ⟨n, rfl⟩ := pass
      obtain ⟨_, _, opened⟩ := (orderly_of_run hb).staffed hx
      obtain ⟨t, ht, _⟩ := opened.start
      obtain ⟨y, hy, awaited⟩ := inStep (by rw [ht]; simp)
      rw [hx] at hy
      cases hy
      rcases awaited with gone | ⟨account, since, rfl, within⟩
      · exact .inr (.inl gone)
      · refine .inr (.inr ⟨account, since, rfl, ?_⟩)
        obtain ⟨rfl, rfl, _⟩ := h.place
        rw [h.length, Nat.add_sub_cancel, Nat.add_assoc, ← spent_succ] at within
        cases hs with
        | passes => exact within
        | worked _ hw => cases hw.worker
    · exact .inl (now_step hs fun n hn => pass ⟨n, hn⟩)

theorem loops_of_run (h : (initial accounts).run as = some w) (cl : w.ClaimedBy k r) (hb : r.config.scenario = .balance)
    (hx : w.workers[i]? = some x) (paced : (initial accounts).Paced as i ℓ) (stops : (initial accounts).StopsAt as stop)
    (opens : w.deadline = s + r.config.duration.nanos) (aside : ∀ t, stop = some t → ∀ j, t ≠ s + spent ℓ j) :
    ∃ m c, Loops accounts as ℓ stop s (bound w.deadline stop) w i x m c := by
  refine worker_induction (P := fun bs v x => (initial accounts).Paced bs i ℓ → (initial accounts).StopsAt bs stop →
    v.deadline = s + r.config.duration.nanos → ∃ m c, Loops accounts bs ℓ stop s (bound v.deadline stop) v i x m c)
    h cl hx ?_ ?_ ?_ paced stops opens
  · intro bs v early d hrun cl inside paced _ opens
    have hs : Happens v (.advanceRun k early) _ := .called k early cl.call (.staffs rfl)
    have none : v.Unstaffed := cl.standing.2.1
    have paced := ((paced_concat hrun hs).1 paced).1
    have now := now_of_paced hrun cl paced rfl rfl
    refine ⟨0, 0, ?_, ?_, fun j hj => absurd hj (Nat.not_lt_zero j), ?_⟩
    · rw [yields_concat hrun (step_of_happens hs), yields_of_run i hrun, none.log, none.no_worker]
      rfl
    · change (calls (own i v.log)).reverse.map _ = _
      rw [none.log]
      rfl
    · rw [steps_concat_other (by simp [Action.worker?]), steps_of_vacant i hrun none.workers, hb]
      refine ⟨rfl, ?_, rfl⟩
      change v.now = _
      change v.deadline = s + r.config.duration.nanos at opens
      change v.deadline = v.now + r.config.duration.nanos at now
      rw [spent, Finset.sum_range_zero]
      omega
  · intro bs v a v' x hrun hs apart hx _ ih paced stops opens
    obtain ⟨paced, inStep⟩ := (paced_concat hrun hs).1 paced
    rw [apart.deadline] at opens ⊢
    obtain ⟨m, c, loops⟩ := ih paced ((stopsAt_concat hrun hs).1 stops).1 opens
    exact ⟨m, c, loops.waits hrun hs apart hx inStep⟩
  · intro bs v a x e hrun hx serves hw ih paced stops opens
    have hs : Happens v a (v.affect i e) := .worked hx hw
    obtain ⟨paced, inStep⟩ := (paced_concat hrun hs).1 paced
    have stops := ((stopsAt_concat hrun hs).1 stops).1
    obtain ⟨m, c, loops⟩ := ih paced stops opens
    rw [hb] at serves
    exact (hw.balance serves).loops serves hrun hx inStep (stops v (visits_last hrun)) aside loops

/-! ### What the loop comes to -/

theorem Loops.made_le (h : Loops accounts as ℓ stop s b w i x m c) (reached : b ≤ s + spent ℓ n) : c ≤ n := by
  by_contra more
  have before := h.early n (by omega)
  omega

/-- A worker that ends by itself has made as many calls as it takes to come to the bound, and no fewer would do. -/
theorem Loops.made_eq {why : Finish} (h : Loops accounts as ℓ stop s b w i (.finished why) m c)
    (least : IsLeast {n | b ≤ s + spent ℓ n} n) : m = n ∧ c = n := by
  obtain ⟨rfl, late, _⟩ := h.place
  have enough : n ≤ c := least.2 late
  have few : c ≤ n := h.made_le least.1
  omega

theorem Loops.steps_le (h : Loops accounts as ℓ stop s b w i x m c) (reached : b ≤ s + spent ℓ n) :
    steps i as ≤ 5 * n + 2 := by
  have few := h.made_le reached
  have place := h.place
  have before : s + spent ℓ m < b → m < n := by
    intro early
    by_contra more
    have mono := spent_mono (ℓ := ℓ) (Nat.le_of_not_lt more)
    omega
  cases x with
  | balance p =>
    cases p with
    | start =>
      obtain ⟨rfl, _, count⟩ := place
      omega
    | unstopped =>
      obtain ⟨rfl, _, count, _⟩ := place
      omega
    | drawing =>
      obtain ⟨rfl, _, count, _⟩ := place
      omega
    | calling account since =>
      obtain ⟨rfl, _, count, _⟩ := place
      omega
  | recordingBalance sample p =>
    obtain ⟨rfl, _, count⟩ := place
    omega
  | finished why =>
    obtain ⟨rfl, _, count, _⟩ := place
    omega
  | faulted fault =>
    obtain ⟨_, count, early⟩ := place
    have := before early
    omega
  | stream p | recordingStream sample p => exact place.elim

end World

end LedgerLoad.Load
