import LedgerLoad.Proofs.RunnerLifecycle

/-!
The samples of a balance run and the calls that they tell of.

The record tells which calls the target saw and how each of them ended. The invariant `Accounted` says that the answered
calls are those whose samples are in the sink or still carried there by a worker, and that the calls nobody has answered
are those the workers wait for, one a worker.
-/

set_option autoImplicit false

namespace LedgerLoad

def Sample.outcome (s : Sample) : Span × Bool × Option String := (s.latency, s.success, s.error)

namespace Load

inductive Ending where
  | pending
  | replied (reply : Except TargetError Unit) (at_ : Nat)
  | panicked (at_ : Nat)

structure Call where
  worker : Nat
  account : String
  start : Nat
  ending : Ending := .pending

namespace Call

def waits (i : Nat) (c : Call) : Bool :=
  match c.ending with
  | .pending => c.worker == i
  | _ => false

def close (i : Nat) (e : Ending) (c : Call) : Call := if c.waits i then { c with ending := e } else c

def outcome (c : Call) : Option (Span × Bool × Option String) :=
  match c.ending with
  | .replied (.ok ()) at_ => some (Span.between c.start at_, true, none)
  | .replied (.error e) at_ => some (Span.between c.start at_, false, some e.message)
  | _ => none

end Call

def calls : List Entry → List Call
  | [] => []
  | .called i account at_ :: es => { worker := i, account := account, start := at_ } :: calls es
  | .answered i _ reply at_ :: es => (calls es).map (Call.close i (.replied reply at_))
  | .panicked i at_ :: es => (calls es).map (Call.close i (.panicked at_))
  | _ :: es => calls es

def Worker.inFlight (i : Nat) : Worker → List Call
  | .balance (.calling account since) => [{ worker := i, account := account, start := since }]
  | _ => []

namespace World

structure Accounted (w : World) : Prop where
  waiting : ∀ i, (calls w.log).filter (Call.waits i) = (w.workers[i]?).elim [] (Worker.inFlight i)
  balanced : ((w.sink.samples.toList ++ w.workers.toList.filterMap Worker.carried).map Sample.outcome).Perm
    ((calls w.log).filterMap Call.outcome)
  drawn : ∀ c ∈ calls w.log, c.account ∈ w.accounts

variable {v v' w w' : World} {a : Action} {as : List Action} {i j k : Nat} {x : Worker} {e : Effect} {r : RunCall}
  {cs : List Call} {c : Call} {ending : Ending}

/-! ### Closing a call -/

theorem waits_iff : c.waits i = true ↔ c.worker = i ∧ c.ending = .pending := by
  obtain ⟨m, account, start, own⟩ := c
  cases own <;> simp [Call.waits]

theorem close_waiting (h : c.waits i = true) : c.close i ending = { c with ending := ending } := if_pos h

theorem close_other (h : ¬ c.waits i = true) : c.close i ending = c := if_neg h

theorem account_close : (c.close i ending).account = c.account := by
  unfold Call.close
  split <;> rfl

theorem filter_close (he : ending ≠ .pending) :
    (cs.map (Call.close i ending)).filter (Call.waits j) = if i = j then [] else cs.filter (Call.waits j) := by
  induction cs with
  | nil => split <;> rfl
  | cons c cs ih =>
    rw [List.map_cons]
    by_cases hi : c.waits i = true
    · have ended : ¬ ({ c with ending := ending } : Call).waits j = true := fun h => he (waits_iff.1 h).2
      rw [close_waiting hi, List.filter_cons_of_neg ended, ih]
      split
      · rfl
      · rename_i hij
        have other : ¬ c.waits j = true := fun h => hij ((waits_iff.1 hi).1.symm.trans (waits_iff.1 h).1)
        rw [List.filter_cons_of_neg other]
    · rw [close_other hi]
      by_cases hj : c.waits j = true
      · have hij : i ≠ j := by
          rintro rfl
          exact hi hj
        rw [if_neg hij] at ih ⊢
        rw [List.filter_cons_of_pos hj, ih, List.filter_cons_of_pos hj]
      · rw [List.filter_cons_of_neg hj, ih, List.filter_cons_of_neg hj]

theorem filterMap_cons_toList {α β : Type} (f : α → Option β) (y : α) (l : List α) :
    (y :: l).filterMap f = (f y).toList ++ l.filterMap f := by
  rw [List.filterMap_cons]
  cases f y <;> rfl

theorem outcomes_close (hc : cs.filter (Call.waits i) = [c]) :
    ((cs.map (Call.close i ending)).filterMap Call.outcome).Perm
      (({ c with ending := ending } : Call).outcome.toList ++ cs.filterMap Call.outcome) := by
  induction cs with
  | nil => cases hc
  | cons d ds ih =>
    rw [List.map_cons]
    by_cases hd : d.waits i = true
    · rw [List.filter_cons_of_pos hd] at hc
      obtain ⟨rfl, hrest⟩ := List.cons.inj hc
      have rest : ds.map (Call.close i ending) = ds := by
        rw [List.map_congr_left (g := id), List.map_id]
        exact fun b hb => close_other (List.filter_eq_nil_iff.1 hrest b hb)
      have silent : d.outcome = none := by
        unfold Call.outcome
        rw [(waits_iff.1 hd).2]
      rw [rest, close_waiting hd, filterMap_cons_toList, filterMap_cons_toList, silent]
      exact List.Perm.refl _
    · rw [List.filter_cons_of_neg hd] at hc
      rw [close_other hd, filterMap_cons_toList, filterMap_cons_toList]
      exact ((ih hc).append_left _).trans (List.perm_append_comm_assoc _ _ _)

/-! ### Steps -/

theorem filterMap_set {α β : Type} {f : α → Option β} {l : List α} {n : Nat} {y z : α} (h : l[n]? = some y) :
    ((l.set n z).filterMap f ++ (f y).toList).Perm (l.filterMap f ++ (f z).toList) := by
  induction l generalizing n with
  | nil => cases h
  | cons b l ih =>
    cases n with
    | zero =>
      cases h
      rw [List.set_cons_zero, filterMap_cons_toList, filterMap_cons_toList, List.append_assoc]
      exact List.perm_append_comm.trans (List.perm_append_comm.append_right _)
    | succ n =>
      rw [List.set_cons_succ, filterMap_cons_toList, filterMap_cons_toList, List.append_assoc, List.append_assoc]
      exact (ih h).append_left _

/-- What a worker's step adds to the sink and to what the worker carries is what it adds to the answered calls. -/
theorem balanced_affect (new : List (Span × Bool × Option String)) (ha : w.Accounted) (hx : w.workers[i]? = some x)
    (told : ((calls (e.entries ++ w.log)).filterMap Call.outcome).Perm (new ++ (calls w.log).filterMap Call.outcome))
    (bill : ((e.sample.toList ++ e.worker.carried.toList).map Sample.outcome).Perm
      (x.carried.toList.map Sample.outcome ++ new)) :
    (((w.affect i e).sink.samples.toList ++ (w.affect i e).workers.toList.filterMap Worker.carried).map
      Sample.outcome).Perm ((calls (w.affect i e).log).filterMap Call.outcome) := by
  have workers : (w.affect i e).workers.toList = w.workers.toList.set i e.worker := by
    change (w.workers.setIfInBounds i e.worker).toList = _
    rw [Array.toList_setIfInBounds]
  have moved : ((w.workers.toList.set i e.worker).filterMap Worker.carried ++ x.carried.toList).Perm
      (w.workers.toList.filterMap Worker.carried ++ e.worker.carried.toList) :=
    filterMap_set (by rw [Array.getElem?_toList]; exact hx)
  rw [samples_affect, workers]
  change List.Perm _ ((calls (e.entries ++ w.log)).filterMap Call.outcome)
  rw [List.perm_iff_count]
  intro o
  have h1 := ha.balanced.count_eq o
  have h2 := told.count_eq o
  have h3 := bill.count_eq o
  have h4 := (moved.map Sample.outcome).count_eq o
  simp only [List.map_append, List.count_append] at h1 h2 h3 h4 ⊢
  omega

theorem waiting_affect (ha : w.Accounted) (hx : w.workers[i]? = some x)
    (own : (calls (e.entries ++ w.log)).filter (Call.waits i) = e.worker.inFlight i)
    (others : ∀ j, i ≠ j → (calls (e.entries ++ w.log)).filter (Call.waits j) = (calls w.log).filter (Call.waits j))
    (j : Nat) : (calls (w.affect i e).log).filter (Call.waits j) =
      ((w.affect i e).workers[j]?).elim [] (Worker.inFlight j) := by
  rw [workers_affect hx]
  by_cases hj : i = j
  · subst hj
    rw [if_pos rfl]
    exact own
  · rw [if_neg hj, ← ha.waiting j]
    exact others j hj

theorem Accounted.silent (ha : w.Accounted) (hx : w.workers[i]? = some x) (same : calls (e.entries ++ w.log) = calls w.log)
    (still : x.inFlight i = e.worker.inFlight i)
    (bill : e.sample.toList ++ e.worker.carried.toList = x.carried.toList) :
    (w.affect i e).Accounted := by
  refine ⟨waiting_affect ha hx ?_ (fun j _ => by rw [same]), balanced_affect [] ha hx ?_ ?_, ?_⟩
  · rw [same, ha.waiting i, hx]
    exact still
  · rw [same]
    exact List.Perm.refl _
  · rw [bill, List.append_nil]
  · change ∀ c ∈ calls (e.entries ++ w.log), c.account ∈ w.accounts
    rw [same]
    exact ha.drawn

theorem Accounted.closing {account : String} {since : Nat} (ha : w.Accounted) (ending : Ending)
    (hx : w.workers[i]? = some (.balance (.calling account since)))
    (closes : calls (e.entries ++ w.log) = (calls w.log).map (Call.close i ending)) (he : ending ≠ .pending)
    (free : e.worker.inFlight i = []) (unsampled : e.sample = none)
    (bill : e.worker.carried.map Sample.outcome =
      ({ worker := i, account := account, start := since, ending := ending } : Call).outcome) :
    (w.affect i e).Accounted := by
  have own : (calls w.log).filter (Call.waits i) = [{ worker := i, account := account, start := since }] := by
    rw [ha.waiting i, hx]
    rfl
  refine ⟨waiting_affect ha hx ?_ (fun j hj => ?_),
    balanced_affect (e.worker.carried.map Sample.outcome).toList ha hx ?_ ?_, ?_⟩
  · rw [closes, filter_close he, if_pos rfl, free]
  · rw [closes, filter_close he, if_neg hj]
  · rw [closes, bill]
    exact outcomes_close own
  · rw [unsampled]
    cases e.worker.carried <;> exact List.Perm.refl _
  · change ∀ c ∈ calls (e.entries ++ w.log), c.account ∈ w.accounts
    rw [closes]
    intro c hc
    obtain ⟨d, hd, rfl⟩ := List.mem_map.1 hc
    rw [account_close]
    exact ha.drawn d hd

theorem outcome_replySample {account : String} {since at_ : Nat} {reply : Except TargetError Unit} :
    ({ worker := i, account := account, start := since, ending := .replied reply at_ } : Call).outcome =
      some (replySample since at_ reply).outcome := by
  cases reply <;> rfl

theorem BalanceStep.accounted (h : BalanceStep w i x a e) (ha : w.Accounted) (hp : w.pool = some ⟨w.accounts⟩)
    (hx : w.workers[i]? = some x) (hs : x.serves .balance = true) : (w.affect i e).Accounted := by
  cases h with
  | cancels | passesFlag | elapses | passesClock | findsPoison | drawsNothing => exact ha.silent hx rfl rfl rfl
  | records s p =>
    cases p <;> cases hs
    exact ha.silent hx rfl rfl rfl
  | @calls n pool account hpool hn hl =>
    rw [hp] at hpool
    cases hpool
    refine ⟨waiting_affect ha hx ?_ (fun j hj => ?_), balanced_affect [] ha hx ?_ ?_, ?_⟩
    · change List.filter (Call.waits i) ({ worker := i, account := account, start := w.now } :: Load.calls w.log) = _
      rw [List.filter_cons_of_pos (by simp [Call.waits]), ha.waiting i, hx]
      rfl
    · change List.filter (Call.waits j) ({ worker := i, account := account, start := w.now } :: Load.calls w.log) = _
      rw [List.filter_cons_of_neg (by simpa [Call.waits] using hj)]
    · exact List.Perm.refl _
    · exact List.Perm.refl _
    · intro c hc
      rcases List.mem_cons.1 hc with rfl | hc
      · exact List.mem_of_getElem? hn
      · exact ha.drawn c hc
  | answered account since reply =>
    exact ha.closing _ hx rfl (by simp) rfl rfl outcome_replySample.symm
  | panics account since => exact ha.closing (.panicked w.now) hx rfl (by simp) rfl rfl rfl

/-! ### Schedules -/

theorem accounted_blank (hl : w.log = []) (hs : w.sink.samples = #[])
    (hw : ∀ (i : Nat) (x : Worker), w.workers[i]? = some x → ∃ s, x = freshWorker s) : w.Accounted := by
  refine ⟨fun i => ?_, ?_, ?_⟩
  · rw [hl]
    cases hx : w.workers[i]? with
    | none => rfl
    | some x =>
      obtain ⟨s, rfl⟩ := hw i x hx
      cases s <;> rfl
  · have carried : w.workers.toList.filterMap Worker.carried = [] := by
      rw [List.filterMap_eq_nil_iff]
      intro x hx
      obtain ⟨i, hi⟩ := List.getElem?_of_mem hx
      rw [Array.getElem?_toList] at hi
      obtain ⟨s, rfl⟩ := hw i x hi
      cases s <;> rfl
    rw [hl, hs, carried]
    exact List.Perm.refl _
  · rw [hl]
    exact fun c hc => nomatch hc

theorem Unstaffed.accounted (h : w.Unstaffed) : w.Accounted :=
  accounted_blank h.log h.samples fun _ _ hx => (h.vacant hx).elim

theorem Accounted.congr (ha : w.Accounted) (hq : Quiet w w') : w'.Accounted := by
  refine ⟨?_, ?_, ?_⟩
  · rw [hq.log, hq.workers]
    exact ha.waiting
  · rw [hq.log, hq.workers, hq.samples]
    exact ha.balanced
  · rw [hq.log, hq.accounts]
    exact ha.drawn

theorem ClaimedBy.accounted (c : w.ClaimedBy k r) (hb : r.config.scenario = .balance) (ha : w.Accounted)
    (h : Happens w a w') : w'.Accounted := by
  rcases Orderly.cases (.inr ⟨k, r, c⟩) h with ⟨_, hq | hs⟩ | ⟨i, x, e, _, hx, hw, rfl⟩
  · exact ha.congr hq
  · exact accounted_blank hs.log hs.samples hs.fresh
  · obtain ⟨staffed, opened⟩ := c.standing.staffed hx
    have serves := staffed.serve i x hx
    have pool : w.pool = some ⟨w.accounts⟩ := by
      rw [opened.pool, WorkloadConfig.poolOf, hb]
    rw [hb] at serves
    exact (hw.balance serves).accounted ha pool hx serves

theorem accounted_of_run {accounts : List String} (h : (initial accounts).run as = some w) :
    w.accounts = accounts ∧ (w.Unclaimed ∨ ∃ k r, w.ClaimedBy k r ∧ (r.config.scenario = .balance → w.Accounted)) := by
  refine run_preserves (P := fun v => v.accounts = accounts ∧
    (v.Unclaimed ∨ ∃ k r, v.ClaimedBy k r ∧ (r.config.scenario = .balance → v.Accounted))) ?_
    ⟨rfl, .inl (unclaimed_initial accounts)⟩ h
  rintro v b v' ⟨hacc, u | ⟨k, r, c, ha⟩⟩ hs
  · refine ⟨(accounts_step (.inl u) hs).trans hacc, ?_⟩
    rcases u.step hs with u' | ⟨k, early, r, rfl, c⟩
    · exact .inl u'
    · refine .inr ⟨k, r, c, fun _ => ?_⟩
      rcases Orderly.cases (.inl u) hs with ⟨_, hq | hset⟩ | ⟨i, x, e, _, hx, _⟩
      · exact u.unstaffed.accounted.congr hq
      · exact accounted_blank hset.log hset.samples hset.fresh
      · exact (u.unstaffed.vacant hx).elim
  · refine ⟨(accounts_step (.inr ⟨k, r, c⟩) hs).trans hacc, ?_⟩
    obtain ⟨q, c'⟩ := c.step hs
    exact .inr ⟨k, _, c', fun hb => c.accounted hb (ha hb) hs⟩

theorem samples_step (o : w.Orderly) (h : Happens w a w') : w.sink.samples.toList <+: w'.sink.samples.toList := by
  rcases o.cases h with ⟨_, hq | hs⟩ | ⟨i, x, e, _, _, _, rfl⟩
  · exact ⟨[], by rw [hq.samples, List.append_nil]⟩
  · exact ⟨[], by rw [hs.samples, hs.empty.samples, List.append_nil]⟩
  · rw [samples_affect]
    exact List.prefix_append _ _

theorem samples_run (o : w.Orderly) (h : w.run as = some w') : w.sink.samples.toList <+: w'.sink.samples.toList := by
  have main := run_preserves (P := fun v => v.Orderly ∧ w.sink.samples.toList <+: v.sink.samples.toList) ?_
    ⟨o, List.prefix_refl _⟩ h
  · exact main.2
  · rintro v b v' ⟨ho, hp⟩ hs
    exact ⟨ho.step hs, hp.trans (samples_step ho hs)⟩

theorem sink_of_panic (h : Happens w (.panic i) w') : w'.sink = w.sink := by
  cases h with
  | worked hx h => rcases h with h | h <;> cases h <;> rfl

theorem inFlight_of_terminated (h : x.terminated = true) : x.inFlight i = [] := by
  cases x with
  | finished why | faulted fault => rfl
  | balance p | stream p | recordingBalance s p | recordingStream s p => cases h

/-- Everything that a sink holds once a balance run is over are the outcomes of the calls that the target answered, each
once. No call is left open, each asked for an account of the pool, and a call that panicked leaves the sink alone, as
does every other step but that it may add a sample. -/
theorem samples_of_balance_run {accounts : List String} {result : Except RunnerError Unit}
    (h : (initial accounts).run as = some w) (hk : Claims accounts as k) (hr : w.runs[k]? = some r)
    (hb : r.config.scenario = .balance) (hres : r.phase.result? = some result) :
    (w.sink.samples.toList.map Sample.outcome).Perm ((calls w.log).filterMap Call.outcome) ∧
    (∀ c ∈ calls w.log, c.ending ≠ .pending ∧ c.account ∈ accounts) ∧
    (∀ v i v', (initial accounts).Takes as v (.panic i) v' → v'.sink = v.sink) ∧
    (∀ v a v', (initial accounts).Takes as v a v' → v.sink.samples.toList <+: v'.sink.samples.toList ∧
      v'.sink.samples.toList <+: w.sink.samples.toList) := by
  have claimed := claimedBy_of_claims h hk hr
  obtain ⟨hacc, hw⟩ := accounted_of_run h
  have accounted : w.Accounted := by
    rcases hw with u | ⟨j, s, c, ha⟩
    · exact (claimed.standing.started u.state).elim
    · have e := claimed.unique c
      subst e
      obtain rfl := c.call_eq hr
      exact ha hb
  have gone := allTerminated_iff.1 (standing_stopped claimed.standing (standing_result claimed.standing hres).1).1
  have carried : w.workers.toList.filterMap Worker.carried = [] := by
    rw [List.filterMap_eq_nil_iff]
    intro x hx
    obtain ⟨i, hi⟩ := List.getElem?_of_mem hx
    rw [Array.getElem?_toList] at hi
    exact carried_of_terminated (gone i x hi)
  have closed : ∀ c ∈ calls w.log, c.ending ≠ .pending := by
    intro c hc hp
    have waits := List.mem_filter.2 ⟨hc, waits_iff.2 ⟨rfl, hp⟩⟩
    rw [accounted.waiting c.worker] at waits
    cases hx : w.workers[c.worker]? with
    | none =>
      rw [hx] at waits
      cases waits
    | some x =>
      rw [hx, Option.elim_some, inFlight_of_terminated (gone _ x hx)] at waits
      cases waits
  refine ⟨?_, fun c hc => ⟨closed c hc, hacc ▸ accounted.drawn c hc⟩, fun v i v' ht => sink_of_panic ht.happens, ?_⟩
  · have balanced := accounted.balanced
    rw [carried, List.append_nil] at balanced
    exact balanced
  · intro v a v' ht
    obtain ⟨bs, cs, hv, hrest⟩ := ht.rest h
    have orderly := orderly_of_run hv
    exact ⟨samples_step orderly ht.happens, samples_run (orderly.step ht.happens) hrest⟩

/-- Three workers query at once: one is answered, one is refused after a stop, and under the last the target panics. -/
def mixed : List Action :=
  let config : WorkloadConfig := { scenario := .balance, concurrency := 3, duration := Span.ofSecs 1 }
  [.run config false, .advanceRun 0 false, .advanceRun 0 false, .advanceRun 0 false, .advanceRun 0 false,
    .advanceRun 0 false, .work 0, .work 1, .work 2, .work 0, .work 1, .work 2, .call 0 0, .call 1 1, .call 2 2, .pass 5,
    .panic 1, .answer 2 (.ok ()), .signal, .advanceRun 0 false, .pass 2, .answer 0 (.error (.transport "gone")), .work 2,
    .work 2, .work 0, .work 0, .advanceRun 0 false, .advanceRun 0 false, .advanceRun 0 false, .advanceRun 0 false,
    .advanceRun 0 false, .advanceRun 0 false]

theorem samples_of_mixed_run : ∃ w r result, (initial ["0.0.1", "0.0.2"]).run mixed = some w ∧
    Claims ["0.0.1", "0.0.2"] mixed 0 ∧ w.runs[0]? = some r ∧ r.config.scenario = .balance ∧
    r.phase.result? = some result ∧ w.sink.samples.size = 2 ∧
    (w.sink.samples.toList.map Sample.outcome).Perm ((calls w.log).filterMap Call.outcome) := by
  have facts : ((initial ["0.0.1", "0.0.2"]).run mixed).map (fun w => (w.state, w.runs.size, w.sink.samples.size,
      (w.runs[0]?).map fun r => (r.config.scenario, r.phase.result?.isSome))) =
        some (.stopped, 1, 2, some (.balance, true)) := by decide +kernel
  obtain ⟨w, h, hw⟩ := Option.map_eq_some_iff.1 facts
  simp only [Prod.mk.injEq, Option.map_eq_some_iff] at hw
  obtain ⟨hstate, hsize, hsamples, r, hr, hb, hres⟩ := hw
  obtain ⟨result, hres⟩ := Option.isSome_iff_exists.1 hres
  have hk : Claims ["0.0.1", "0.0.2"] mixed 0 := by
    rcases claims_of_run h with ⟨u, _⟩ | ⟨k, s, c, hk⟩
    · rw [u.state] at hstate
      cases hstate
    · have hlt := (Array.getElem?_eq_some_iff.1 c.call).1
      exact (hk 0).2 (by omega)
  exact ⟨w, r, result, h, hk, hr, hb, hres, hsamples, (samples_of_balance_run h hk hr hb hres).1⟩

end World

end Load

end LedgerLoad
