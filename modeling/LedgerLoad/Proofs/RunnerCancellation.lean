import LedgerLoad.Proofs.RunnerProgress
import LedgerLoad.Proofs.RunnerWinding

/-!
Nothing new starts after a stop.

Whatever a runner is doing when the stop flag is set, each of its workers ends within a few steps of its own: a balance
worker once the one call that it has in flight is over, a streaming worker as soon as the target lets it look at the
flag. A run that begins after the stop asks the target for nothing and ends well.
-/

set_option autoImplicit false

namespace LedgerLoad.Load

namespace World

variable {u v v' w w' : World} {a : Action} {as bs : List Action} {i j k n : Nat} {x y : Worker} {e : Effect}
  {r : RunCall} {s : Scenario} {es : List Entry} {accounts : List String}

/-! ### A run that begins after a stop -/

/-- The world of a run that began after a stop: nothing was asked, nothing recorded, and no worker came to harm. -/
structure Idle (w : World) : Prop where
  stopped : w.stopped = true
  samples : w.sink.samples = #[]
  asked : ∀ entry ∈ w.log, entry.asks = false
  workers : ∀ (i : Nat) (y : Worker), w.workers[i]? = some y →
    (∃ s, y = freshWorker s) ∨ y = .finished .requestedCancellation

theorem own_mem {entry : Entry} (h : entry ∈ es) : entry ∈ own entry.worker es :=
  List.mem_filter.2 ⟨h, beq_self_eq_true _⟩

theorem idle_of_run (hu : u.Unclaimed) (hs : u.stopped = true) (h : u.run bs = some w) : w.Idle := by
  obtain ⟨_, es, hd⟩ := woundDown_of_run (.inl hu) hs h
  have fresh : ∀ (i : Nat) (y : Worker), w.workers[i]? = some y →
      ∃ s, WindsDown i (freshWorker s) (stepsOf i bs) (own i es) y := by
    intro i y hy
    obtain ⟨x, hb | ⟨_, s, rfl⟩, hw⟩ := hd.winds i y hy
    · exact (hu.unstaffed.vacant hb).elim
    · exact ⟨s, hw⟩
  have silent : ∀ entry ∈ es, entry.asks = false ∧ entry.sample? = none := by
    intro entry he
    obtain ⟨s, hw⟩ := fresh _ _ (Array.getElem?_eq_getElem (hd.owners entry he))
    obtain ⟨_, asks, carried⟩ := hw.steady (s := s) (by cases s <;> rfl) (by cases s <;> rfl)
    have none_carried : (freshWorker s).carried = none := by cases s <;> rfl
    rw [none_carried] at carried
    have none_recorded := (List.append_eq_nil_iff.1 carried).2
    refine ⟨?_, List.filterMap_eq_nil_iff.1 none_recorded entry (own_mem he)⟩
    simpa using List.filter_eq_nil_iff.1 asks entry (own_mem he)
  refine ⟨hd.stopped, ?_, ?_, fun i y hy => ?_⟩
  · have recorded_nil : recorded es = [] := List.filterMap_eq_nil_iff.2 fun entry he => (silent entry he).2
    have samples := hd.samples
    rw [recorded_nil, hu.unstaffed.samples] at samples
    exact Array.toList_eq_nil_iff.1 samples
  · rw [hd.log, hu.unstaffed.log, List.append_nil]
    exact fun entry he => (silent entry he).1
  · obtain ⟨s, hw⟩ := fresh i y hy
    rcases hw.fresh with ⟨rfl, _⟩ | rfl
    · exact .inl ⟨s, rfl⟩
    · exact .inr rfl

theorem Idle.faultless (h : w.Idle) : w.faults = [] := by
  rw [World.faults, List.filterMap_eq_nil_iff]
  intro y hy
  obtain ⟨i, hi⟩ := List.getElem?_of_mem hy
  rw [Array.getElem?_toList] at hi
  rcases h.workers i y hi with ⟨s, rfl⟩ | rfl
  · cases s <;> rfl
  · rfl

theorem Idle.result {result : Except RunnerError Unit} (h : w.Idle) (c : w.ClaimedBy k r)
    (hr : r.phase.result? = some result) : result = .ok () ∧ w.state = .stopped := by
  have finished : ∀ {res}, w.Standing r.config (.over res) → res = .ok () ∧ w.state = .stopped := by
    rintro res ⟨hs, _, _, _, faults, hg, rfl⟩
    rw [hg.2, h.faultless]
    exact ⟨rfl, hs⟩
  have standing := c.standing
  cases hp : r.phase with
  | «over» res | returned res =>
    rw [hp] at standing hr
    cases hr
    exact finished standing
  | _ =>
    rw [hp] at hr
    cases hr

def Unaided (k : Nat) (cs : List Action) : Prop := ∀ a ∈ cs, a = .advanceRun k false ∨ ∃ i, a = .work i

theorem unaided_nil : Unaided k [] := by
  intro a ha
  cases ha

theorem Unaided.append (h : Unaided k as) (h' : Unaided k bs) : Unaided k (as ++ bs) := by
  intro a ha
  rcases List.mem_append.1 ha with ha | ha
  · exact h a ha
  · exact h' a ha

theorem unaided_advance : Unaided k [.advanceRun k false] := by
  intro a ha
  exact .inl (List.mem_singleton.1 ha)

theorem unaided_work : Unaided k [.work i] := by
  intro a ha
  exact .inr ⟨i, List.mem_singleton.1 ha⟩

/-- The first `n` workers of `w` are gone in `v`, each once it had seen the stop; the others may be fresh still. -/
structure EndsFirst (k : Nat) (w : World) (n : Nat) (as : List Action) (v : World) : Prop where
  unaided : Unaided k as
  run : w.run as = some v
  runs : v.runs = w.runs
  now : v.now = w.now
  stopped : v.stopped = true
  size : v.workers.size = w.workers.size
  gone : ∀ (i : Nat) (y : Worker), v.workers[i]? = some y → i < n → y.terminated = true
  rest : ∀ (i : Nat) (y : Worker), v.workers[i]? = some y → (∃ s, y = freshWorker s) ∨ y.terminated = true

theorem EndsFirst.skip (h : EndsFirst k w n as v) (hn : ∀ y, v.workers[n]? = some y → y.terminated = true) :
    EndsFirst k w (n + 1) as v := by
  refine { h with gone := fun i y hy hi => ?_ }
  by_cases hin : i = n
  · subst hin
    exact hn y hy
  · exact h.gone i y hy (by omega)

theorem EndsFirst.next (h : EndsFirst k w n as v) (hx : v.workers[n]? = some (freshWorker s)) :
    ∃ v', EndsFirst k w (n + 1) (as ++ [.work n]) v' := by
  have cancels : WorkerStep v n (freshWorker s) (.work n)
      ⟨.finished .requestedCancellation, [.ended n v.now], none, false⟩ := by
    cases s with
    | balance => exact .inl (.cancels h.stopped)
    | stream => exact .inr (.cancels h.stopped)
  refine ⟨v.affect n _, h.unaided.append unaided_work, run_concat h.run (step_of_happens (.worked hx cancels)), h.runs,
    h.now, h.stopped, Array.size_setIfInBounds.trans h.size, ?_, ?_⟩
  · intro i y hy hi
    rw [workers_affect hx] at hy
    split at hy
    · cases hy
      rfl
    · exact h.gone i y hy (by omega)
  · intro i y hy
    rw [workers_affect hx] at hy
    split at hy
    · cases hy
      exact .inr rfl
    · exact h.rest i y hy

theorem endsFirst (h : w.stopped = true)
    (hw : ∀ (i : Nat) (y : Worker), w.workers[i]? = some y → (∃ s, y = freshWorker s) ∨ y.terminated = true) (n : Nat) :
    ∃ as v, EndsFirst k w n as v := by
  induction n with
  | zero => exact ⟨[], w, unaided_nil, rfl, rfl, rfl, h, rfl, fun i y _ hi => (Nat.not_lt_zero i hi).elim, hw⟩
  | succ n ih =>
    obtain ⟨as, v, hv⟩ := ih
    cases hx : v.workers[n]? with
    | none =>
      refine ⟨as, v, hv.skip fun y hy => ?_⟩
      rw [hx] at hy
      cases hy
    | some x =>
      rcases hv.rest n x hx with ⟨s, rfl⟩ | ht
      · obtain ⟨v', hv'⟩ := hv.next hx
        exact ⟨_, v', hv'⟩
      · refine ⟨as, v, hv.skip fun y hy => ?_⟩
        rw [hx] at hy
        cases hy
        exact ht

theorem workers_end (h : w.stopped = true)
    (hw : ∀ (i : Nat) (y : Worker), w.workers[i]? = some y → (∃ s, y = freshWorker s) ∨ y.terminated = true) :
    ∃ as v, Unaided k as ∧ w.run as = some v ∧ v.runs = w.runs ∧ v.now = w.now ∧ v.allTerminated = true := by
  obtain ⟨as, v, hv⟩ := endsFirst (k := k) h hw w.workers.size
  refine ⟨as, v, hv.unaided, hv.run, hv.runs, hv.now, allTerminated_iff.2 fun i y hy => hv.gone i y hy ?_⟩
  rw [← hv.size]
  exact (Array.getElem?_eq_some_iff.1 hy).1

theorem completes (hu : u.Unclaimed) (hs : u.stopped = true) (h : u.run bs = some w) (c : w.ClaimedBy k r)
    (hd : w.now + r.config.duration.nanos < clockLimit) (hn : r.phase.left < n) :
    ∃ cs v q, Unaided k cs ∧ w.run cs = some v ∧ v.ClaimedBy k { r with phase := q } ∧ q.result? = some (.ok ()) := by
  induction n generalizing bs w r with
  | zero => exact (Nat.not_lt_zero _ hn).elim
  | succ n ih =>
    have idle := idle_of_run hu hs h
    cases hres : r.phase.result? with
    | some result =>
      refine ⟨[], w, r.phase, unaided_nil, rfl, c, ?_⟩
      rw [hres, (idle.result c hres).1]
    | none =>
      have onward : ∀ (cs : List Action) {v v'}, Unaided k cs → w.run cs = some v → v.runs = w.runs → v.now = w.now →
          CallStep v k false r v' → ∃ cs v q, Unaided k cs ∧ w.run cs = some v ∧ v.ClaimedBy k { r with phase := q } ∧
            q.result? = some (.ok ()) := by
        intro cs v v' own hrun hruns hnow hstep
        have hr : v.runs[k]? = some r := by rw [hruns, c.call]
        obtain ⟨q, hq, hnow', ho⟩ := hstep.advances hr
        have happens := Happens.called k false hr hstep
        have hrun' := run_concat hrun (step_of_happens happens)
        obtain ⟨p, hp⟩ := c.run hrun'
        have e : ({ r with phase := p } : RunCall) = { r with phase := q } := Option.some.inj (hp.call.symm.trans hq)
        rw [e] at hp
        have hd' : v'.now + r.config.duration.nanos < clockLimit := by
          rw [hnow', hnow]
          exact hd
        obtain ⟨ds, x, p, own', hrest, hx, hres'⟩ :=
          ih (run_append_eq_some.2 ⟨w, h, hrun'⟩) hp hd' (Nat.lt_of_lt_of_le (ho.left hres) (Nat.le_of_lt_succ hn))
        exact ⟨(cs ++ [.advanceRun k false]) ++ ds, x, p, (own.append unaided_advance).append own',
          run_append_eq_some.2 ⟨v', hrun', hrest⟩, hx, hres'⟩
      rcases standing_progress c.standing (.inr hd) hres with ⟨w', hstep⟩ | ⟨_, _, joins⟩
      · exact onward [] unaided_nil rfl rfl rfl hstep
      · obtain ⟨cs, v, own, hrun, hruns, hnow, ht⟩ := workers_end idle.stopped fun i y hy =>
          (idle.workers i y hy).imp id fun hy => by rw [hy]; rfl
        exact onward cs own hrun hruns hnow (.joins (joins (.inl idle.stopped)) ht)

/-- With steps that need nobody else the `k`-th run call, which is `r`, comes to a good end and leaves the runner stopped,
with no question put to the target and no sample in the sink. -/
def CanEnd (w : World) (k : Nat) (r : RunCall) : Prop :=
  ∃ cs v q, Unaided k cs ∧ w.run cs = some v ∧ v.runs[k]? = some { r with phase := q } ∧ q.result? = some (.ok ()) ∧
    v.state = .stopped ∧ v.sink.samples = #[] ∧ ∀ entry ∈ v.log, entry.asks = false

theorem canEnd_of_claimed (hu : u.Unclaimed) (hs : u.stopped = true) (h : u.run bs = some w) (c : w.ClaimedBy k r)
    (hd : w.now + r.config.duration.nanos < clockLimit) : w.CanEnd k r := by
  obtain ⟨cs, v, q, own, hrun, c', hres⟩ := completes hu hs h c hd (Nat.lt_succ_self _)
  have idle := idle_of_run hu hs (run_append_eq_some.2 ⟨w, h, hrun⟩)
  exact ⟨cs, v, q, own, hrun, c'.call, hres, (idle.result c' hres).2, idle.samples, idle.asked⟩

theorem CanEnd.after {p : RunPhase} (h : v.CanEnd k { r with phase := p }) (own : Unaided k as) (hrun : w.run as = some v) :
    w.CanEnd k r := by
  obtain ⟨cs, x, q, own', hrun', rest⟩ := h
  exact ⟨as ++ cs, x, q, own.append own', run_append_eq_some.2 ⟨v, hrun, hrun'⟩, rest⟩

theorem unclaimed_progress (hu : w.Unclaimed) (hr : w.runs[k]? = some r) (hn : r.phase.result? = none)
    (hsup : r.config.Supplied w.accounts) :
    ∃ cs v q, Unaided k cs ∧ w.run cs = some v ∧ v.now = w.now ∧ v.ClaimedBy k { r with phase := q } := by
  have claim : ∀ (cs : List Action) (pool : Option AccountPool) {v : World}, Unaided k cs → w.run cs = some v →
      v.Unclaimed → v.now = w.now →
      v.runs[k]? = some { r with phase := .checked pool } →
      ∃ cs v q, Unaided k cs ∧ w.run cs = some v ∧ v.now = w.now ∧ v.ClaimedBy k { r with phase := q } := by
    intro cs pool v own hrun hv hnow hk
    have happens := Happens.called k false hk (.claims rfl hv.state)
    rcases hv.step happens with hv' | ⟨j, early, s, ha, c⟩
    · have state := hv'.state
      simp [setRun, move, Lifecycle.advance, hv.state] at state
    · cases ha
      have call := c.call
      rw [runs_setRun, if_pos rfl] at call
      change (v.runs[k]?).map _ = _ at call
      rw [hk] at call
      cases call
      refine ⟨cs ++ [.advanceRun k false], _, .claimed pool, own.append unaided_advance,
        run_concat hrun (step_of_happens happens), ?_, c⟩
      exact hnow
  have outside := hu.others k r hr
  cases hp : r.phase with
  | checked pool =>
    refine claim [] pool unaided_nil rfl hu rfl ?_
    rw [hr, ← hp]
  | entered =>
    have check : ∀ {pool}, CallStep w k false r (w.setRun k (.checked pool)) →
        ∃ cs v q, Unaided k cs ∧ w.run cs = some v ∧ v.now = w.now ∧ v.ClaimedBy k { r with phase := q } := by
      intro pool hc
      have happens := Happens.called k false hr hc
      rcases hu.step happens with hv | ⟨j, early, s, _, c⟩
      · refine claim [.advanceRun k false] pool unaided_advance
          (run_cons_eq_some.2 ⟨_, step_of_happens happens, rfl⟩) hv rfl ?_
        rw [runs_setRun, if_pos rfl, hr]
        rfl
      · exact (c.standing.started hu.state).elim
    cases hs : r.config.scenario with
    | stream => exact check (.needsNoPool hp hs)
    | balance => exact check (.findsPool hp hs (hsup hs))
  | «over» result | returned result =>
    rw [hp] at hn
    cases hn
  | _ =>
    rw [hp] at outside
    exact outside.elim

/-! ### The law -/

/-- What follows a stop for worker `i`, which stood at `x` when the flag was set, has made `n` steps since that left these
entries in the record, and stands at `y`. -/
structure Aftermath (i : Nat) (x : Worker) (n : Nat) (es : List Entry) (y : Worker) : Prop where
  steps : n + y.stepsLeft ≤ x.stepsLeft
  asks : (es.filter Entry.asks).length ≤ x.asksLeft
  samples : (recorded es).length ≤ x.samplesLeft ∧ x.samplesLeft ≤ 1
  /-- A unit of work that is asked for after the stop asks the target for nothing. -/
  unasked : x.entering = true → es.filter Entry.asks = []
  /-- Neither such a unit of work nor one suspended at the stop comes to a sample. -/
  unsampled : x.entering = true ∨ x.suspended = true → y.carried.toList ++ recorded es = x.carried.toList
  verdict : x.entering = true ∨ x.suspended = true → ∀ why, y = .finished why → why = x.verdict
  /-- A call in flight is awaited to its end. -/
  awaited : ∀ account since, x = .balance (.calling account since) → Awaited i account since es y
  /-- So is the call of a unit of work that had looked at the flag before it was set. -/
  drawing : x = .balance .unstopped ∨ x = .balance .drawing → es.filter Entry.asks = [] ∧ recorded es = [] ∨
    ∃ account since later, es = later ++ [.called i account since] ∧ Awaited i account since later y

theorem WindsDown.aftermath (h : WindsDown i x n es y) (hx : x.serves s = true) : Aftermath i x n es y := by
  obtain ⟨steps, asks, samples⟩ := h.budget hx
  have steady : x.entering = true ∨ x.suspended = true → x.steady = true := by
    intro hst
    cases x with
    | stream p => cases p <;> simp_all [Worker.steady]
    | _ => simpa [Worker.steady] using hst
  have one : x.samplesLeft ≤ 1 := by
    unfold Worker.samplesLeft
    split <;> omega
  refine ⟨steps, by omega, ⟨by omega, one⟩, fun he => (h.steady hx (steady (.inl he))).2.1,
    fun hst => (h.steady hx (steady hst)).2.2, ?_, ?_, ?_⟩
  · rintro hst why rfl
    exact (h.steady hx (steady hst)).1
  · rintro account since rfl
    exact h.awaited
  · rintro (rfl | rfl)
    · exact h.unstopped
    · exact h.drawing

theorem Orderly.begins (o : u.Orderly) (h : u.Begins i x) : ∃ s, x.serves s = true := by
  rcases h with hx | ⟨_, s, rfl⟩
  · obtain ⟨c, staffed, _⟩ := o.staffed hx
    exact ⟨c.scenario, staffed.serve i x hx⟩
  · exact ⟨s, by cases s <;> rfl⟩

/-- Nothing new starts after a stop, whenever the flag was set. What each worker still does is bounded by where it stood
then, a worker that is not gone can go on unless it waits for an answer of the target, and a run that had not begun asks
for nothing, records nothing, and can always come to its end, which is a good one. -/
theorem nothing_new_after_stop (h : (initial accounts).run as = some u) (hs : u.stopped = true) (hr : u.run bs = some w) :
    (∃ es, w.log = es ++ u.log ∧ w.sink.samples.toList = u.sink.samples.toList ++ (recorded es).reverse ∧
      (∀ entry ∈ es, entry.worker < w.workers.size) ∧
      (∀ (i : Nat) (x : Worker), u.workers[i]? = some x → ∃ y, w.workers[i]? = some y) ∧
      ∀ (i : Nat) (y : Worker), w.workers[i]? = some y →
        (∃ x, u.Begins i x ∧ Aftermath i x (stepsOf i bs) (own i es) y) ∧
        (y.terminated = true ∨ y.awaits = true ∨ ∃ a ∈ ownSteps i, ∃ w', w.step a = some w')) ∧
    (u.state = .notStarted →
      w.sink.samples = #[] ∧ (∀ entry ∈ w.log, entry.asks = false) ∧
      ∀ k r, w.runs[k]? = some r →
        (∀ result, Claims accounts (as ++ bs) k → r.phase.result? = some result → result = .ok () ∧ w.state = .stopped) ∧
        (Claims accounts (as ++ bs) k ∨ w.state = .notStarted ∧ r.phase.result? = none → r.config.Supplied w.accounts →
          w.now + r.config.duration.nanos < clockLimit → w.CanEnd k r)) := by
  have o := orderly_of_run h
  have whole : (initial accounts).run (as ++ bs) = some w := run_append_eq_some.2 ⟨u, h, hr⟩
  constructor
  · obtain ⟨o', es, hd⟩ := woundDown_of_run o hs hr
    refine ⟨es, hd.log, hd.samples, hd.owners, ?_, ?_⟩
    · intro i x hx
      cases hy : w.workers[i]? with
      | some y => exact ⟨y, rfl⟩
      | none =>
        rw [(hd.absent i hy).1] at hx
        cases hx
    · intro i y hy
      obtain ⟨x, hb, hw⟩ := hd.winds i y hy
      obtain ⟨s, hx⟩ := o.begins hb
      refine ⟨⟨x, hb, hw.aftermath hx⟩, ?_⟩
      cases hl : y.terminated with
      | true => exact .inl rfl
      | false => exact .inr (worker_progress o' hy hl)
  · intro hn
    have hu := unclaimed_of_notStarted o hn
    have idle := idle_of_run hu hs hr
    refine ⟨idle.samples, idle.asked, fun k r hk => ⟨fun result hc hres => ?_, fun hc hsup hd => ?_⟩⟩
    · exact idle.result (claimedBy_of_claims whole hc hk) hres
    rcases hc with hc | ⟨hstate, hres⟩
    · exact canEnd_of_claimed hu hs hr (claimedBy_of_claims whole hc hk) hd
    · have hw := unclaimed_of_notStarted (orderly_of_run whole) hstate
      obtain ⟨cs, v, p, own, hrun, hnow, c⟩ := unclaimed_progress hw hk hres hsup
      have soon : v.now + r.config.duration.nanos < clockLimit := by
        rw [hnow]
        exact hd
      exact (canEnd_of_claimed hu hs (run_append_eq_some.2 ⟨w, hr, hrun⟩) c soon).after own hrun

/-- A stop finds one worker with a call in flight, one about to call and one that has yet to look at the flag. -/
def interrupted : List Action :=
  let config : WorkloadConfig := { scenario := .balance, concurrency := 3, duration := Span.ofSecs 1 }
  [.run config false, .advanceRun 0 false, .advanceRun 0 false, .advanceRun 0 false, .advanceRun 0 false,
    .advanceRun 0 false, .work 0, .work 0, .call 0 0, .work 1, .work 1, .signal]

def woundUp : List Action :=
  [.work 2, .call 1 0, .pass 7, .answer 0 (.ok ()), .work 0, .work 0, .answer 1 (.error (.transport "gone")), .work 1,
    .work 1]

theorem stop_of_interrupted_run : ∃ u w es x y, (initial ["0.0.1"]).run interrupted = some u ∧ u.stopped = true ∧
    u.run woundUp = some w ∧ w.sink.samples.size = 2 ∧ w.log = es ++ u.log ∧ x.awaits = true ∧ y.terminated = true ∧
    Aftermath 0 x (stepsOf 0 woundUp) (own 0 es) y := by
  have before : ((initial ["0.0.1"]).run interrupted).map (fun u => (u.stopped, (u.workers[0]?).map Worker.awaits)) =
      some (true, some true) := by decide +kernel
  obtain ⟨u, hu, hbefore⟩ := Option.map_eq_some_iff.1 before
  simp only [Prod.mk.injEq, Option.map_eq_some_iff] at hbefore
  obtain ⟨hs, x, hx, hawaits⟩ := hbefore
  have after : ((initial ["0.0.1"]).run (interrupted ++ woundUp)).map (fun w =>
      (w.sink.samples.size, (w.workers[0]?).map Worker.terminated)) = some (2, some true) := by decide +kernel
  obtain ⟨w, hw, hafter⟩ := Option.map_eq_some_iff.1 after
  simp only [Prod.mk.injEq, Option.map_eq_some_iff] at hafter
  obtain ⟨hsize, y, hy, hgone⟩ := hafter
  have hr : u.run woundUp = some w := by
    obtain ⟨v, hv, hr⟩ := run_append_eq_some.1 hw
    rw [hu] at hv
    cases hv
    exact hr
  obtain ⟨es, hlog, _, _, _, each⟩ := (nothing_new_after_stop hu hs hr).1
  obtain ⟨⟨x', hb, aftermath⟩, _⟩ := each 0 y hy
  rcases hb with hb | ⟨hb, _⟩
  · rw [hx] at hb
    cases hb
    exact ⟨u, w, es, x, y, hu, hs, hr, hsize, hlog, hawaits, hgone, aftermath⟩
  · rw [hx] at hb
    cases hb

end World

end LedgerLoad.Load
