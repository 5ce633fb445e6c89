import Mathlib.Algebra.Order.BigOperators.Group.Finset
import Mathlib.Algebra.Order.Floor.Div
import LedgerLoad.Proofs.RunnerOutcomes
import LedgerLoad.Proofs.RunnerPace

/-!
Balance runs whose workers are closed loops.

Where the target answers in its time and nothing else takes any, a run is never stuck and comes to its end: each worker
takes a bounded number of steps, and as long as one is at work there is something that may happen next. How many samples
there are then, and how long the window is, follows from the sums of the latencies alone.
-/

set_option autoImplicit false

namespace LedgerLoad.Load

def Action.inward : Action → Bool
  | .pass _ | .signal | .stop | .answer _ _ | .panic _ => false
  | _ => true

namespace World

variable {u v v' w w' : World} {a : Action} {as bs cs : List Action} {i j k m n c s : ℕ} {x : Worker} {e : Effect}
  {r : RunCall} {p q : RunPhase} {accounts : List String} {ℓ : ℕ → ℕ → ℕ} {stop : Option ℕ}

theorem stopped_of_inward (h : Happens w a w') (ha : a.inward = true) : w'.stopped = w.stopped := by
  rcases h with _ | _ | _ | _ | _ | _ | ⟨k, early, hr, hc⟩ | ⟨hx, hw⟩
  · cases ha
  · cases ha
  · cases ha
  · rfl
  · rfl
  · rfl
  · cases hc <;> rfl
  · rfl

theorem now_of_inward (h : Happens w a w') (ha : a.inward = true) : w'.now = w.now := by
  refine now_step h ?_
  rintro n rfl
  cases ha

/-! ### Schedules of closed loops -/

/-- The `j`-th call of worker `i` takes `ℓ i j`, nothing else takes any time while the window is open, the stop is requested
at an instant or not at all, and the target does not panic. -/
structure ClosedLoop (accounts : List String) (as : List Action) (workers : ℕ) (ℓ : ℕ → ℕ → ℕ) (stop : Option ℕ) :
    Prop where
  paced : ∀ i < workers, (initial accounts).Paced as i (ℓ i)
  stops : (initial accounts).StopsAt as stop
  attended : (initial accounts).Attended as
  calm : ∀ v i v', ¬ (initial accounts).Takes as v (.panic i) v'

theorem ClosedLoop.concat (h : ClosedLoop accounts bs c ℓ stop) (hb : (initial accounts).run bs = some v)
    (hs : Happens v a v') (inStep : ∀ i < c, v.InStep (ℓ i) i a) (flag : v'.Flagged stop)
    (live : ∀ n, a = .pass n → v.allTerminated = false) (calm : ∀ i, a ≠ .panic i) :
    ClosedLoop accounts (bs ++ [a]) c ℓ stop := by
  have taken := step_of_happens hs
  refine ⟨fun i hi => (paced_concat hb hs).2 ⟨h.paced i hi, inStep i hi⟩,
    (stopsAt_concat hb hs).2 ⟨h.stops, flag⟩, ?_, ?_⟩
  · intro x n x' ht start finish
    rcases (takes_concat hb taken).1 ht with ht | ⟨rfl, rfl, rfl⟩
    · exact h.attended x n x' ht start finish
    · exact live n rfl
  · intro x i x' ht
    rcases (takes_concat hb taken).1 ht with ht | ⟨_, he, _⟩
    · exact h.calm x i x' ht
    · exact calm i he.symm

theorem ClosedLoop.inward (h : ClosedLoop accounts bs c ℓ stop) (hb : (initial accounts).run bs = some v)
    (hs : Happens v a v') (ha : a.inward = true) : ClosedLoop accounts (bs ++ [a]) c ℓ stop := by
  refine h.concat hb hs (fun i _ => ?_) ?_ ?_ ?_
  · cases a <;> first | exact trivial | cases ha
  · have before := h.stops v (visits_last hb)
    constructor <;> rw [stopped_of_inward hs ha, now_of_inward hs ha]
    · exact before.requested
    · exact before.noticed
  · rintro n rfl
    cases ha
  · rintro i rfl
    cases ha

theorem ClosedLoop.unfaulted (h : ClosedLoop accounts as c ℓ stop) (hrun : (initial accounts).run as = some w)
    (hx : w.workers[i]? = some x) : x.fault? = none := by
  have calm : ∀ j t, .panicked j t ∉ w.log := by
    refine run_induction (P := fun bs v => (∀ u j u', ¬ (initial accounts).Takes bs u (.panic j) u') →
      ∀ j t, Entry.panicked j t ∉ v.log) ?_ ?_ hrun h.calm
    · intro _ j t he
      cases he
    · intro bs v a v' hb ih hs calm j t he
      have taken := step_of_happens hs
      have before := ih fun u j u' ht => calm u j u' ((takes_concat hb taken).2 (.inl ht))
      rcases (orderly_of_run hb).cases hs with ⟨_, quiet | sets⟩ | ⟨i, y, e, _, _, hw, rfl⟩
      · rw [quiet.log] at he
        exact before j t he
      · rw [sets.log] at he
        cases he
      · rcases List.mem_append.1 he with he | he
        · have last := (takes_concat hb taken).2 (.inr ⟨rfl, rfl, rfl⟩)
          rcases hw with hw | hw <;> cases hw <;> simp at he
          all_goals exact calm v _ _ last
        · exact before j t he
  cases x with
  | faulted f =>
    obtain ⟨_, t, ht⟩ := (fares_of_run hrun hx).faulted f rfl
    exact (calm i t ht).elim
  | _ => rfl

/-! ### Runs of closed loops -/

theorem ClaimedBy.deadline (cl : w.ClaimedBy k r) (begun : r.phase.begun = true) (h : Happens w a w') :
    w'.deadline = w.deadline := by
  obtain ⟨q, _, shift⟩ := cl.shift h
  cases shift with
  | quiet _ hq => exact hq.deadline
  | begins early hp =>
    rw [hp] at begun
    cases begun
  | staffs early hp | ends early hp | works hx hw => rfl

/-- A balance run whose window opened at `s`, on a schedule of closed loops. -/
structure Underway (accounts : List String) (as : List Action) (w : World) (k : ℕ) (r : RunCall) (ℓ : ℕ → ℕ → ℕ)
    (stop : Option ℕ) (s : ℕ) : Prop where
  run : (initial accounts).run as = some w
  claimed : w.ClaimedBy k r
  begun : r.phase.begun = true
  balance : r.config.scenario = .balance
  deadline : w.deadline = s + r.config.duration.nanos
  loop : ClosedLoop accounts as r.config.concurrency ℓ stop
  aside : ∀ t, stop = some t → ∀ i < r.config.concurrency, ∀ j, t ≠ s + spent (ℓ i) j

theorem Underway.flagged (h : Underway accounts as w k r ℓ stop s) : w.Flagged stop :=
  h.loop.stops w (visits_last h.run)

theorem Underway.step (h : Underway accounts as w k r ℓ stop s) (hs : Happens w a w')
    (loop : ClosedLoop accounts (as ++ [a]) r.config.concurrency ℓ stop) :
    ∃ q, Underway accounts (as ++ [a]) w' k { r with phase := q } ℓ stop s := by
  obtain ⟨q, hq, onward⟩ := hs.phase h.claimed.call
  obtain ⟨q', cl⟩ := h.claimed.step hs
  rw [cl.call_eq hq] at cl
  refine ⟨q, run_concat h.run (step_of_happens hs), cl, ?_, h.balance, (h.claimed.deadline h.begun hs).trans h.deadline, loop,
    h.aside⟩
  rcases onward with rfl | onward
  · exact h.begun
  · exact onward.begun h.begun

theorem Underway.inward (h : Underway accounts as w k r ℓ stop s) (hs : Happens w a w') (ha : a.inward = true) :
    ∃ q, Underway accounts (as ++ [a]) w' k { r with phase := q } ℓ stop s :=
  h.step hs (h.loop.inward h.run hs ha)

theorem Underway.inwards (h : Underway accounts as w k r ℓ stop s) (hrun : w.run bs = some v)
    (hbs : ∀ a ∈ bs, a.inward = true) : ∃ q, Underway accounts (as ++ bs) v k { r with phase := q } ℓ stop s := by
  induction bs generalizing as w r with
  | nil =>
    cases hrun
    rw [List.append_nil]
    exact ⟨r.phase, h⟩
  | cons a bs ih =>
    obtain ⟨w', hstep, hrest⟩ := run_cons_eq_some.1 hrun
    obtain ⟨q, next⟩ := h.inward (happens_of_step hstep) (hbs a List.mem_cons_self)
    obtain ⟨q', last⟩ := ih next hrest fun b hb => hbs b (List.mem_cons_of_mem a hb)
    rw [List.append_assoc] at last
    exact ⟨q', last⟩

theorem Underway.loops (h : Underway accounts as w k r ℓ stop s) (hx : w.workers[i]? = some x) :
    i < r.config.concurrency ∧
      ∃ m c, Loops accounts as (ℓ i) stop s (bound (s + r.config.duration.nanos) stop) w i x m c := by
  have inside : i < r.config.concurrency := by
    rw [← (h.claimed.standing.staffed hx).1.size]
    exact (Array.getElem?_eq_some_iff.1 hx).1
  refine ⟨inside, ?_⟩
  rw [← h.deadline]
  exact loops_of_run h.run h.claimed h.balance hx (h.loop.paced i inside) h.loop.stops h.deadline
    fun t ht j => h.aside t ht i inside j

/-! ### Every such run can be completed -/

def due (ℓ : ℕ → ℕ → ℕ) (s : ℕ) (w : World) (i : ℕ) : ℕ := s + spent (ℓ i) (callsOf i w).length

theorem Underway.calling (h : Underway accounts as w k r ℓ stop s) (hx : w.workers[i]? = some x) (ha : x.awaits = true) :
    ∃ account since, x = .balance (.calling account since) ∧
      since + ℓ i ((callsOf i w).length - 1) = due ℓ s w i ∧ w.now ≤ due ℓ s w i := by
  obtain ⟨_, m, c, loops⟩ := h.loops hx
  have place := loops.place
  cases x with
  | balance p =>
    cases p with
    | calling account since =>
      obtain ⟨rfl, rfl, _, within⟩ := place
      refine ⟨account, _, rfl, ?_, ?_⟩
      · rw [due, loops.length, spent_succ, Nat.add_sub_cancel, Nat.add_assoc]
      · rw [due, loops.length]
        exact within
    | _ => cases ha
  | stream p => exact place.elim
  | _ => cases ha

/-- Time may pass where every worker that is at work waits for an answer, until the first of those is due. -/
theorem Underway.pass (h : Underway accounts as w k r ℓ stop s) (hx : w.workers[i]? = some x) (live : x.terminated = false)
    (waiting : ∀ (j : ℕ) (y : Worker), w.workers[j]? = some y → y.terminated = false → y.awaits = true)
    (within : ∀ (j : ℕ) (y : Worker), w.workers[j]? = some y → y.terminated = false → w.now + n ≤ due ℓ s w j)
    (flag : ∀ t, stop = some t → t < w.now + n → w.stopped = true) :
    ∃ q, Underway accounts (as ++ [.pass n]) { w with now := w.now + n } k { r with phase := q } ℓ stop s := by
  have size := (h.claimed.standing.staffed hx).1.size
  refine h.step (.passes n) (h.loop.concat h.run (.passes n) (fun j hj _ => ?_) ⟨fun hs => ?_, flag⟩ (fun _ _ => ?_) ?_)
  · obtain ⟨y, hy⟩ : ∃ y, w.workers[j]? = some y := ⟨_, Array.getElem?_eq_getElem (by omega)⟩
    refine ⟨y, hy, ?_⟩
    cases hl : y.terminated with
    | true => exact .inl rfl
    | false =>
      obtain ⟨account, since, rfl, answered, _⟩ := h.calling hy (waiting j y hy hl)
      exact .inr ⟨account, since, rfl, by rw [answered]; exact within j _ hy hl⟩
  · obtain ⟨t, ht, before⟩ := h.flagged.requested hs
    exact ⟨t, ht, Nat.le_trans before (Nat.le_add_right _ _)⟩
  · by_contra gone
    rw [allTerminated_iff.1 (by simpa using gone) i x hx] at live
    cases live
  · intro j he
    cases he

theorem Underway.signal (h : Underway accounts as w k r ℓ stop s) (hs : stop = some w.now) :
    ∃ q, Underway accounts (as ++ [.signal]) { w with stopped := true } k { r with phase := q } ℓ stop s :=
  h.step .signalled (h.loop.concat h.run .signalled (fun _ _ => trivial)
    ⟨fun _ => ⟨w.now, hs, Nat.le_refl _⟩, fun _ _ _ => rfl⟩ (fun _ hn => nomatch hn) fun _ hn => nomatch hn)

theorem Underway.answer {account : String} {since : ℕ} (h : Underway accounts as w k r ℓ stop s)
    (hx : w.workers[i]? = some (.balance (.calling account since))) (now : w.now = since + ℓ i ((callsOf i w).length - 1)) :
    ∃ v q, w.step (.answer i (.ok ())) = some v ∧
      Underway accounts (as ++ [.answer i (.ok ())]) v k { r with phase := q } ℓ stop s := by
  have answered : Happens w (.answer i (.ok ())) _ := .worked hx (.inl (.answered account since (.ok ())))
  have inStep : ∀ j < r.config.concurrency, w.InStep (ℓ j) j (.answer i (.ok ())) := by
    rintro j _ rfl account' since' hx'
    rw [hx] at hx'
    cases hx'
    exact now
  obtain ⟨q, next⟩ := h.step answered (h.loop.concat h.run answered inStep ⟨h.flagged.requested, h.flagged.noticed⟩
    (fun _ hn => nomatch hn) fun _ hn => nomatch hn)
  exact ⟨_, q, step_of_happens answered, next⟩

/-- How many steps are left: those of the workers, if worker `i` makes `n i` calls, and the stop. -/
def toDo (workers : ℕ) (n : ℕ → ℕ) (as : List Action) (w : World) : ℕ :=
  (∑ i ∈ Finset.range workers, (5 * n i + 2 - steps i as)) + if w.stopped then 0 else 1

theorem steps_append (i : ℕ) (as bs : List Action) : steps i (as ++ bs) = steps i as + steps i bs := List.countP_append

theorem left_append_le {n : ℕ → ℕ} (i : ℕ) (as bs : List Action) :
    5 * n i + 2 - steps i (as ++ bs) ≤ 5 * n i + 2 - steps i as := by
  rw [steps_append]
  omega

theorem unstopped_le (stopped : w.stopped = true → v.stopped = true) :
    (if v.stopped then 0 else 1) ≤ if w.stopped then 0 else 1 := by
  cases hw : w.stopped with
  | true => simp [stopped hw]
  | false =>
    simp only [Bool.false_eq_true, if_false]
    split <;> omega

theorem toDo_le {n : ℕ → ℕ} (bs : List Action) (stopped : w.stopped = true → v.stopped = true) :
    toDo c n (as ++ bs) v ≤ toDo c n as w :=
  Nat.add_le_add (Finset.sum_le_sum fun i _ => left_append_le i as bs) (unstopped_le stopped)

theorem toDo_lt_of_steps {n : ℕ → ℕ} (hi : i < c) (own : 0 < steps i bs) (room : steps i (as ++ bs) ≤ 5 * n i + 2)
    (stopped : w.stopped = true → v.stopped = true) : toDo c n (as ++ bs) v < toDo c n as w := by
  have sum := Finset.sum_lt_sum (s := Finset.range c) (fun j _ => left_append_le (n := n) j as bs)
    ⟨i, Finset.mem_range.2 hi, by rw [steps_append] at room ⊢; omega⟩
  exact Nat.add_lt_add_of_lt_of_le sum (unstopped_le stopped)

theorem toDo_lt_of_stop {n : ℕ → ℕ} (bs : List Action) (before : w.stopped = false) (after : v.stopped = true) :
    toDo c n (as ++ bs) v < toDo c n as w := by
  have sum := Finset.sum_le_sum (s := Finset.range c) fun j _ => left_append_le (n := n) j as bs
  simp only [toDo, before, after, if_true, Bool.false_eq_true, if_false]
  omega

theorem stopped_of_run (hrun : w.run bs = some v) (hs : w.stopped = true) : v.stopped = true :=
  run_preserves (P := fun v => v.stopped = true) (fun _ _ _ hv hs => hs.stopped hv) hs hrun

theorem worker_of_step (h : w.step a = some v) (ha : a.worker? = some i) : ∃ y, v.workers[i]? = some y := by
  obtain ⟨x, e, hx, _, rfl⟩ := (happens_of_step h).worker ha
  exact ⟨e.worker, by rw [workers_affect hx, if_pos rfl]⟩

theorem Underway.lowers {n : ℕ → ℕ}
    (reached : ∀ i < r.config.concurrency, bound (s + r.config.duration.nanos) stop ≤ s + spent (ℓ i) (n i))
    (hu : w.run bs = some u) (hv : u.step a = some v) (ha : a.worker? = some i)
    (next : Underway accounts (as ++ (bs ++ [a])) v k { r with phase := q } ℓ stop s) :
    toDo r.config.concurrency n (as ++ (bs ++ [a])) v < toDo r.config.concurrency n as w := by
  obtain ⟨y, hy⟩ := worker_of_step hv ha
  obtain ⟨inside, m, c, loops⟩ := next.loops hy
  refine toDo_lt_of_steps inside ?_ (loops.steps_le (reached i inside)) (stopped_of_run (run_concat hu hv))
  rw [steps_concat_own ha]
  omega

/-- As long as a worker is at work, the run can go on to where there is less to do. Where everybody waits, the call that
is due first is answered, unless the stop comes before. -/
theorem Underway.advance {n : ℕ → ℕ} (h : Underway accounts as w k r ℓ stop s)
    (reached : ∀ i < r.config.concurrency, bound (s + r.config.duration.nanos) stop ≤ s + spent (ℓ i) (n i))
    (live : w.allTerminated = false) :
    ∃ bs v q, w.run bs = some v ∧ Underway accounts (as ++ bs) v k { r with phase := q } ℓ stop s ∧
      toDo r.config.concurrency n (as ++ bs) v < toDo r.config.concurrency n as w := by
  by_cases waiting : ∀ (j : ℕ) (y : Worker), w.workers[j]? = some y → y.terminated = false → y.awaits = true
  · obtain ⟨i₀, x₀, hx₀, live₀⟩ := exists_live live
    obtain ⟨i, ⟨x, hx, hl⟩, first⟩ := (measure (due ℓ s w)).wf.has_min
      {j | ∃ y, w.workers[j]? = some y ∧ y.terminated = false} ⟨i₀, x₀, hx₀, live₀⟩
    have least : ∀ (j : ℕ) (y : Worker), w.workers[j]? = some y → y.terminated = false → due ℓ s w i ≤ due ℓ s w j :=
      fun j y hy hl => Nat.le_of_not_lt (first j ⟨y, hy, hl⟩)
    obtain ⟨account, since, rfl, answered, before⟩ := h.calling hx (waiting i x hx hl)
    by_cases soon : w.stopped = false ∧ ∃ t, stop = some t ∧ t ≤ due ℓ s w i
    · obtain ⟨unstopped, t, rfl, early⟩ := soon
      have ahead : w.now ≤ t := by
        by_contra late
        rw [h.flagged.noticed t rfl (by omega)] at unstopped
        cases unstopped
      have there : w.now + (t - w.now) = t := by omega
      have within : ∀ (j : ℕ) (y : Worker), w.workers[j]? = some y → y.terminated = false →
          w.now + (t - w.now) ≤ due ℓ s w j := fun j y hy hl => there.trans_le (early.trans (least j y hy hl))
      have silent : ∀ t', some t = some t' → t' < w.now + (t - w.now) → w.stopped = true := by
        intro t' ht hlt
        cases ht
        omega
      obtain ⟨q, waits⟩ := h.pass hx hl waiting within silent
      obtain ⟨q', stops⟩ := waits.signal (congrArg some there.symm)
      rw [List.append_assoc] at stops
      exact ⟨[.pass (t - w.now)] ++ [.signal], _, q', rfl, stops, toDo_lt_of_stop _ unstopped rfl⟩
    · have there : w.now + (due ℓ s w i - w.now) = due ℓ s w i := by omega
      have within : ∀ (j : ℕ) (y : Worker), w.workers[j]? = some y → y.terminated = false →
          w.now + (due ℓ s w i - w.now) ≤ due ℓ s w j := fun j y hy hl => there.trans_le (least j y hy hl)
      have heard : ∀ t, stop = some t → t < w.now + (due ℓ s w i - w.now) → w.stopped = true := by
        intro t ht hlt
        cases hs : w.stopped with
        | true => rfl
        | false => exact (soon ⟨hs, t, ht, by omega⟩).elim
      obtain ⟨q, waits⟩ := h.pass hx hl waiting within heard
      obtain ⟨v, q', hv, next⟩ := waits.answer hx (there.trans answered.symm)
      rw [List.append_assoc] at next
      refine ⟨[.pass (due ℓ s w i - w.now)] ++ [.answer i (.ok ())], v, q', run_concat rfl hv, next, ?_⟩
      exact Underway.lowers reached rfl hv rfl next
  · push Not at waiting
    obtain ⟨i, x, hx, hl, ready⟩ := waiting
    obtain ⟨a, own, v, hv⟩ := (worker_progress (orderly_of_run h.run) hx hl).resolve_left ready
    have belongs : a.worker? = some i ∧ a.inward = true := by
      simp only [ownSteps, List.mem_cons, List.not_mem_nil, or_false] at own
      rcases own with rfl | rfl | rfl | rfl | rfl <;> exact ⟨rfl, rfl⟩
    obtain ⟨q, next⟩ := h.inward (happens_of_step hv) belongs.2
    exact ⟨[] ++ [a], v, q, run_concat rfl hv, next, Underway.lowers reached rfl hv belongs.1 next⟩

theorem Underway.result_ok {result : Except RunnerError Unit} (h : Underway accounts as w k r ℓ stop s)
    (hres : r.phase.result? = some result) : result = .ok () :=
  (h.claimed.standing.reports hres).ok_iff.2 fun _ _ hx => h.loop.unfaulted h.run hx

/-- Every run of closed loops can be completed. -/
theorem Underway.completes {n : ℕ → ℕ} (h : Underway accounts as w k r ℓ stop s)
    (reached : ∀ i < r.config.concurrency, bound (s + r.config.duration.nanos) stop ≤ s + spent (ℓ i) (n i)) :
    ∃ bs v q, w.run bs = some v ∧ Underway accounts (as ++ bs) v k { r with phase := q } ℓ stop s ∧
      q.result? = some (.ok ()) := by
  induction hm : toDo r.config.concurrency n as w using Nat.strong_induction_on generalizing as w r with
  | _ m ih =>
    subst hm
    obtain ⟨l, v, q, _, hrun, cl, _, ends⟩ := h.claimed.concludes (.inl h.begun)
    obtain ⟨q', next⟩ := h.inwards hrun fun a ha => by rw [List.eq_of_mem_replicate ha]; rfl
    obtain rfl : q' = q := by simpa using next.claimed.call_eq cl.call
    rcases ends with ended | ⟨live, _⟩
    · obtain ⟨result, hres⟩ := Option.isSome_iff_exists.1 ended
      obtain rfl := next.result_ok hres
      exact ⟨_, v, q', hrun, next, hres⟩
    · obtain ⟨bs, u, q, hu, further, less⟩ := next.advance reached live
      have before : toDo r.config.concurrency n (as ++ List.replicate l (.advanceRun k false)) v ≤ _ :=
        toDo_le (w := w) _ (stopped_of_run hrun)
      obtain ⟨cs, z, p, hz, last, hres⟩ := ih _ (Nat.lt_of_lt_of_le less before) further reached rfl
      refine ⟨List.replicate l (.advanceRun k false) ++ (bs ++ cs), z, p, ?_, ?_, hres⟩
      · exact run_append_eq_some.2 ⟨v, hrun, run_append_eq_some.2 ⟨u, hu, hz⟩⟩
      · simpa only [List.append_assoc] using last

/-! ### The law -/

/-- Worker `i`, whose `j`-th call takes `ℓ j`, comes to the bound in `n` calls: it makes no more of them, one right after the
other, and is never stuck before its end. When it has ended by itself it has made and recorded all `n`, each with its
latency, at the instant at which the last was over; and it ended for the stop if that was requested by then. -/
structure Trips (accounts : List String) (as : List Action) (w : World) (i : ℕ) (x : Worker) (s : ℕ) (ℓ : ℕ → ℕ)
    (stop : Option ℕ) (n : ℕ) : Prop where
  made : (callsOf i w).length ≤ n
  begins : (callsOf i w).map (·.start) = (List.range (callsOf i w).length).map fun j => s + spent ℓ j
  samples : ∃ m ≤ (callsOf i w).length,
    (yields i (initial accounts) as).map (·.latency) = (List.range m).map fun j => Span.ofNanos (ℓ j)
  goesOn : x.terminated = false → ∃ a v, a.worker? = some i ∧ w.step a = some v
  steps : steps i as ≤ 5 * n + 2
  ends : ∀ why, x = .finished why →
    (callsOf i w).length = n ∧
    (recorded (own i w.log)).reverse.map (·.latency) = ((List.range n).map fun j => Span.ofNanos (ℓ j)) ∧
    (∀ t, .ended i t ∈ own i w.log ↔ t = s + spent ℓ n) ∧
    (why = .requestedCancellation ∧ (∃ t, stop = some t ∧ t < s + spent ℓ n) ∨
      why = .elapsed ∧ ∀ t, stop = some t → s + spent ℓ n < t)

theorem Loops.over_le {ℓ : ℕ → ℕ} {b : ℕ} (h : Loops accounts as ℓ stop s b w i x m c) : m ≤ c := by
  have place := h.place
  cases x with
  | balance p => cases p <;> obtain ⟨rfl, _⟩ := place <;> omega
  | recordingBalance sample p | finished why =>
    obtain ⟨rfl, _⟩ := place
    exact Nat.le_refl _
  | faulted fault => exact place.1
  | stream p | recordingStream sample p => exact place.elim

theorem trips_of_run {ℓ : ℕ → ℕ} (h : (initial accounts).run as = some w) (cl : w.ClaimedBy k r)
    (hb : r.config.scenario = .balance) (hx : w.workers[i]? = some x) (hs : w.sink.window.start = some s)
    (paced : (initial accounts).Paced as i ℓ) (stops : (initial accounts).StopsAt as stop)
    (aside : ∀ t, stop = some t → ∀ j, t ≠ s + spent ℓ j)
    (least : IsLeast {n | bound (s + r.config.duration.nanos) stop ≤ s + spent ℓ n} n) :
    Trips accounts as w i x s ℓ stop n := by
  have opens : w.deadline = s + r.config.duration.nanos := by
    obtain ⟨t, ht, deadline⟩ := (cl.standing.staffed hx).2.start
    rw [hs] at ht
    cases ht
    exact deadline
  obtain ⟨m, c, loops⟩ := loops_of_run h cl hb hx paced stops opens aside
  rw [opens] at loops
  have made := loops.length
  refine ⟨?_, ?_, ⟨m, ?_, loops.samples⟩, fun live => ?_, loops.steps_le least.1, ?_⟩
  · rw [made]
    exact loops.made_le least.1
  · rw [made]
    exact loops.starts
  · rw [made]
    exact loops.over_le
  · rcases worker_progress (orderly_of_run h) hx live with awaits | ⟨a, own, v, hv⟩
    · cases x with
      | balance p =>
        cases p with
        | calling account since =>
          exact ⟨.answer i (.ok ()), _, rfl, step_of_happens (.worked hx (.inl (.answered account since (.ok ()))))⟩
        | _ => cases awaits
      | stream p => exact loops.place.elim
      | _ => cases awaits
    · refine ⟨a, v, ?_, hv⟩
      simp only [ownSteps, List.mem_cons, List.not_mem_nil, or_false] at own
      rcases own with rfl | rfl | rfl | rfl | rfl <;> rfl
  · rintro why rfl
    obtain ⟨rfl, rfl⟩ := loops.made_eq least
    obtain ⟨_, _, _, ended, why⟩ := loops.place
    have told := yields_of_run i h
    rw [hx] at told
    refine ⟨made, ?_, ended, why⟩
    rw [← loops.samples, told]
    exact (congrArg _ (List.append_nil _)).symm

theorem Underway.finished {result : Except RunnerError Unit} (h : Underway accounts as w k r ℓ stop s)
    (hres : r.phase.result? = some result) (hi : i < r.config.concurrency) : ∃ why, w.workers[i]? = some (.finished why) := by
  have size := (standing_stopped h.claimed.standing (standing_result h.claimed.standing hres).1).2.2
  obtain ⟨x, hx⟩ : ∃ x, w.workers[i]? = some x := ⟨_, Array.getElem?_eq_getElem (by omega)⟩
  have gone := (h.claimed.standing.reports hres).gone i x hx
  have clean := h.loop.unfaulted h.run hx
  cases x with
  | finished why => exact ⟨why, hx⟩
  | faulted fault => cases clean
  | _ => cases gone

theorem spent_const (L n : ℕ) : spent (fun _ => L) n = L * n := by
  simp [spent, Nat.mul_comm]

theorem isLeast_ceilDiv {L : ℕ} (hL : 0 < L) (s d : ℕ) :
    IsLeast {n | bound (s + d) none ≤ s + spent (fun _ => L) n} (d ⌈/⌉ L) := by
  have reaches : ∀ n, bound (s + d) none ≤ s + spent (fun _ => L) n ↔ d ⌈/⌉ L ≤ n := by
    intro n
    rw [ceilDiv_le_iff_le_mul hL, spent_const]
    change s + d ≤ _ ↔ _
    omega
  exact ⟨(reaches _).2 (Nat.le_refl _), fun n hn => (reaches n).1 hn⟩

theorem Underway.constant {L : ℕ} {result : Except RunnerError Unit} (h : Underway accounts as w k r (fun _ _ => L) none s)
    (hL : 0 < L) (hc : 0 < r.config.concurrency) (hres : r.phase.result? = some result) :
    w.sink.samples.size = r.config.concurrency * (r.config.duration.nanos ⌈/⌉ L) ∧
      (∀ x ∈ w.sink.samples.toList, x.latency = Span.ofNanos L) ∧
      w.sink.duration = Span.ofNanos (L * (r.config.duration.nanos ⌈/⌉ L)) := by
  have size := (standing_stopped h.claimed.standing (standing_result h.claimed.standing hres).1).2.2
  have gone : w.allTerminated = true := allTerminated_iff.2 (h.claimed.standing.reports hres).gone
  have each : ∀ i < r.config.concurrency,
      (yields i (initial accounts) as).map (·.latency) = List.replicate (r.config.duration.nanos ⌈/⌉ L) (Span.ofNanos L) ∧
        ∀ t, .ended i t ∈ own i w.log → t = s + L * (r.config.duration.nanos ⌈/⌉ L) := by
    intro i hi
    obtain ⟨why, hx⟩ := h.finished hres hi
    obtain ⟨_, m, c, loops⟩ := h.loops hx
    obtain ⟨rfl, rfl⟩ := loops.made_eq (isLeast_ceilDiv hL s _)
    obtain ⟨_, _, _, ended, _⟩ := loops.place
    refine ⟨?_, fun t ht => ?_⟩
    · rw [loops.samples, List.map_const', List.length_range]
    · rw [(ended t).1 ht, spent_const]
  have all := samples_of_yields h.run gone
  rw [size] at all
  refine ⟨?_, fun x hx => ?_, ?_⟩
  · rw [← Array.length_toList, all.length_eq, List.length_flatMap]
    have lengths : (List.range r.config.concurrency).map (fun i => (yields i (initial accounts) as).length) =
        (List.range r.config.concurrency).map fun _ => r.config.duration.nanos ⌈/⌉ L := by
      refine List.map_congr_left fun i hi => ?_
      have one := congrArg List.length (each i (List.mem_range.1 hi)).1
      rwa [List.length_map, List.length_replicate] at one
    rw [lengths, List.map_const', List.sum_replicate, List.length_range, smul_eq_mul]
  · obtain ⟨i, hi, hx⟩ := List.mem_flatMap.1 (all.subset hx)
    have latency := List.mem_map_of_mem (f := (·.latency)) hx
    rw [(each i (List.mem_range.1 hi)).1] at latency
    exact List.eq_of_mem_replicate latency
  · obtain ⟨i, f, hf, ended⟩ :=
      (immediate_of_attended h.run h.claimed hc h.loop.attended).ended (RunPhase.noted_of_result hres)
    have inside : i < r.config.concurrency := by
      rw [← size]
      exact (told_of_run h.run).owners _ ended
    have own : .ended i f ∈ own i w.log := List.mem_filter.2 ⟨ended, by simp [Entry.worker]⟩
    obtain rfl := (each i inside).2 f own
    obtain ⟨t, ht, deadline⟩ := (h.claimed.standing.opened h.begun).start
    obtain rfl : t = s := by
      have opens := h.deadline
      omega
    have window : w.sink.window = ⟨some t, some (t + L * (r.config.duration.nanos ⌈/⌉ L))⟩ := by rw [← ht, ← hf]
    rw [Sink.duration, Window.duration, window]
    exact congrArg Span.ofNanos (Nat.add_sub_cancel_left _ _)

def opening (config : WorkloadConfig) : List Action := .run config false :: List.replicate 3 (.advanceRun 0 false)

theorem inward_opening (config : WorkloadConfig) : ∀ a ∈ opening config, a.inward = true := by
  intro a ha
  rcases List.mem_cons.1 ha with rfl | ha
  · rfl
  · rw [List.eq_of_mem_replicate ha]
    rfl

theorem closedLoop_of_inward (h : (initial accounts).run as = some w) (has : ∀ a ∈ as, a.inward = true) :
    ClosedLoop accounts as c ℓ stop := by
  refine run_induction (P := fun bs _ => (∀ a ∈ bs, a.inward = true) → ClosedLoop accounts bs c ℓ stop) ?_ ?_ h has
  · refine fun _ => ⟨fun i _ v a v' ht => (not_takes_nil ht).elim, ?_, fun v n v' ht => (not_takes_nil ht).elim,
      fun v i v' ht => not_takes_nil ht⟩
    rintro v ⟨bs, cs, he, hv⟩
    obtain ⟨rfl, rfl⟩ := List.append_eq_nil_iff.1 he.symm
    cases hv
    exact ⟨fun hs => (nomatch hs), fun t _ hlt => absurd hlt (Nat.not_lt_zero t)⟩
  · intro bs v a v' hb ih hs has
    exact (ih fun b hb => has b (List.mem_append_left _ hb)).inward hb hs (has a (by simp))

def calledFor (accounts : List String) (config : WorkloadConfig) (state : Lifecycle) (phase : RunPhase) : World where
  accounts := accounts
  state := state
  runs := #[{ config := config, monitored := false, phase := phase }]

theorem underway_opening {config : WorkloadConfig} (ha : accounts ≠ []) (hb : config.scenario = .balance)
    (hd : config.duration.nanos < clockLimit)
    (aside : ∀ t, stop = some t → ∀ i < config.concurrency, ∀ j, t ≠ 0 + spent (ℓ i) j) :
    ∃ w r, Underway accounts (opening config) w 0 r ℓ stop 0 ∧ r.config = config := by
  have supplied : Happens (calledFor accounts config .notStarted .entered) (.advanceRun 0 false)
      (calledFor accounts config .notStarted (.checked (some ⟨accounts⟩))) := .called 0 false rfl (.findsPool rfl hb ha)
  have claims : Happens (calledFor accounts config .notStarted (.checked (some ⟨accounts⟩))) (.advanceRun 0 false)
      (calledFor accounts config .running (.claimed (some ⟨accounts⟩))) := .called 0 false rfl (.claims rfl rfl)
  have inRange : 0 + config.duration.nanos < clockLimit := by rwa [Nat.zero_add]
  have begins : Happens (calledFor accounts config .running (.claimed (some ⟨accounts⟩))) (.advanceRun 0 false) _ :=
    .called 0 false rfl (.begins rfl inRange)
  have hrun : (initial accounts).run (opening config) = some _ :=
    run_cons_eq_some.2 ⟨calledFor accounts config .notStarted .entered, rfl, run_cons_eq_some.2 ⟨_, step_of_happens supplied,
      run_cons_eq_some.2 ⟨_, step_of_happens claims, run_cons_eq_some.2 ⟨_, step_of_happens begins, rfl⟩⟩⟩⟩
  have hk : Claims accounts (opening config) 0 := claims_of_alone hrun (show Lifecycle.running ≠ .notStarted by decide) rfl
  have loop : ClosedLoop accounts (opening config) config.concurrency ℓ stop :=
    closedLoop_of_inward hrun (inward_opening config)
  exact ⟨_, _, ⟨hrun, claimedBy_of_claims hrun hk rfl, rfl, hb, rfl, loop, aside⟩, rfl⟩

/-- The law of balance workers as closed loops.

Each worker makes and records as many calls as it takes for their latencies to come to the deadline or to the stop, whichever
is first: no more on the way, and exactly so many when it has ended. Such a run is never stuck: wherever it stands it can be
completed, and there is one for all latencies, durations and stops. If all latencies are the same and there is no stop, the
number of samples is that of the workers times the quotient of duration and latency, rounded up, and the window is as many
latencies long. -/
theorem closed_loop_law :
    (∀ {accounts : List String} {as : List Action} {w : World} {k i s n : ℕ} {r : RunCall} {x : Worker} {ℓ : ℕ → ℕ}
        {stop : Option ℕ}, (initial accounts).run as = some w → Claims accounts as k → w.runs[k]? = some r →
      r.config.scenario = .balance → w.workers[i]? = some x → w.sink.window.start = some s →
      (initial accounts).Paced as i ℓ → (initial accounts).StopsAt as stop →
      (∀ t, stop = some t → ∀ j, t ≠ s + spent ℓ j) →
      IsLeast {n | bound (s + r.config.duration.nanos) stop ≤ s + spent ℓ n} n → Trips accounts as w i x s ℓ stop n) ∧
    (∀ {accounts : List String} {as : List Action} {w : World} {k s : ℕ} {r : RunCall} {ℓ : ℕ → ℕ → ℕ} {stop : Option ℕ}
        {n : ℕ → ℕ}, Underway accounts as w k r ℓ stop s →
      (∀ i < r.config.concurrency, bound (s + r.config.duration.nanos) stop ≤ s + spent (ℓ i) (n i)) →
      ∃ bs v q, w.run bs = some v ∧ Underway accounts (as ++ bs) v k { r with phase := q } ℓ stop s ∧
        q.result? = some (.ok ()) ∧ ∀ i < r.config.concurrency, ∃ why, v.workers[i]? = some (.finished why)) ∧
    (∀ {accounts : List String} {config : WorkloadConfig} {ℓ : ℕ → ℕ → ℕ} {stop : Option ℕ}, accounts ≠ [] →
      config.scenario = .balance → config.duration.nanos < clockLimit →
      (∀ t, stop = some t → ∀ i < config.concurrency, ∀ j, t ≠ 0 + spent (ℓ i) j) →
      ∃ w r, Underway accounts (opening config) w 0 r ℓ stop 0 ∧ r.config = config) ∧
    (∀ {accounts : List String} {as : List Action} {w : World} {k s L : ℕ} {r : RunCall} {result : Except RunnerError Unit},
      Underway accounts as w k r (fun _ _ => L) none s → 0 < L → 0 < r.config.concurrency → r.phase.result? = some result →
      result = .ok () ∧ w.sink.samples.size = r.config.concurrency * (r.config.duration.nanos ⌈/⌉ L) ∧
        (∀ x ∈ w.sink.samples.toList, x.latency = Span.ofNanos L) ∧
        w.sink.duration = Span.ofNanos (L * (r.config.duration.nanos ⌈/⌉ L))) := by
  refine ⟨fun h hk hr => trips_of_run h (claimedBy_of_claims h hk hr), fun h reached => ?_, underway_opening,
    fun h hL hc hres => ⟨h.result_ok hres, h.constant hL hc hres⟩⟩
  obtain ⟨bs, v, q, hrun, next, hres⟩ := h.completes reached
  exact ⟨bs, v, q, hrun, next, hres, fun i hi => next.finished hres hi⟩

/-- Two workers call a target that takes 30 ms, for 100 ms. -/
theorem samples_of_two_workers : ∃ as w r, Underway ["0.0.1"] as w 0 r (fun _ _ => 30000000) none 0 ∧
    r.phase.result? = some (.ok ()) ∧ w.sink.samples.size = 8 ∧ w.sink.duration = Span.ofMillis 120 := by
  obtain ⟨_, completes, opens, constant⟩ := closed_loop_law
  let config : WorkloadConfig := { scenario := .balance, concurrency := 2, duration := Span.ofMillis 100 }
  obtain ⟨w, r, under, hr⟩ : ∃ w r, Underway ["0.0.1"] (opening config) w 0 r (fun _ _ => 30000000) none 0 ∧
      r.config = config := opens (by decide) rfl (by decide) fun t ht => nomatch ht
  have reached : bound (0 + r.config.duration.nanos) none ≤ 0 + spent (fun _ => 30000000) 4 := by
    rw [hr, spent_const]
    decide
  obtain ⟨bs, v, q, _, next, hres, _⟩ := completes under (n := fun _ => 4) fun i _ => reached
  obtain ⟨_, size, _, window⟩ := constant next (by decide) (by rw [hr]; decide) hres
  have four : (Span.ofMillis 100).nanos ⌈/⌉ 30000000 = 4 := by
    rw [Nat.ceilDiv_eq_add_pred_div]
    decide
  refine ⟨_, v, _, next, hres, ?_, ?_⟩
  · rw [size, hr, four]
    rfl
  · rw [window, hr, four]
    rfl

end World

end LedgerLoad.Load
