import LedgerLoad.Proofs.DurationTexts
import LedgerLoad.Proofs.RunnerCompletion

/-!
How long a run may be.

The deadline of a run is reckoned after the runner was claimed. If no instant is so late, the call that claimed the runner
is lost there, and nothing that happens later takes the runner any further. The durations that can be written reach twice
as far as the clock.
-/

set_option autoImplicit false

namespace LedgerLoad.Load.World

variable {u v v' w w' : World} {a : Action} {as bs : List Action} {k : Nat} {t : Nat} {r : RunCall} {early : Bool}
  {pool : Option AccountPool} {accounts : List String}

/-! ### The look at the clock -/

def Reads (accounts : List String) (as : List Action) (k t : Nat) : Prop :=
  ∃ v early v' r pool, (initial accounts).Takes as v (.advanceRun k early) v' ∧ v.runs[k]? = some r ∧
    r.phase = .claimed pool ∧ v.now = t

theorem reads_concat (h : (initial accounts).run as = some v) (ha : v.step a = some v') (hr : Reads accounts as k t) :
    Reads accounts (as ++ [a]) k t := by
  obtain ⟨u, early, u', r, pool, ht, hcall, hp, hnow⟩ := hr
  exact ⟨u, early, u', r, pool, (takes_concat h ha).2 (.inl ht), hcall, hp, hnow⟩

theorem reads_last (h : (initial accounts).run as = some v) (ha : v.step (.advanceRun k early) = some v')
    (hr : v.runs[k]? = some r) (hp : r.phase = .claimed pool) : Reads accounts (as ++ [.advanceRun k early]) k v.now :=
  ⟨v, early, v', r, pool, (takes_concat h ha).2 (.inr ⟨rfl, rfl, rfl⟩), hr, hp, rfl⟩

def Reckons (w : World) (c : WorkloadConfig) (q : RunPhase) : Prop :=
  w.now + c.duration.nanos < clockLimit ∧ q.begun = true ∨ clockLimit ≤ w.now + c.duration.nanos ∧ q = .panicked

theorem CallStep.reckons (h : CallStep w k early r w') (hr : w.runs[k]? = some r) (hp : r.phase = .claimed pool) :
    ∃ q, w'.runs[k]? = some { r with phase := q } ∧ w.Reckons r.config q := by
  have taken := advanceRun_of_callStep h
  simp only [World.advanceRun, hp] at taken
  split at taken
  · rename_i inRange
    cases taken
    refine ⟨.started (w.now + r.config.duration.nanos), ?_, .inl ⟨inRange, rfl⟩⟩
    rw [runs_setRun, if_pos rfl]
    simp only [hr, Option.map_some]
  · rename_i outOfRange
    cases taken
    refine ⟨.panicked, ?_, .inr ⟨Nat.not_lt.1 outOfRange, rfl⟩⟩
    rw [runs_setRun, if_pos rfl, hr, Option.map_some]

theorem Happens.begun (h : Happens w a w') (hr : w.runs[k]? = some r) (hb : r.phase.begun = true) :
    ∃ q, w'.runs[k]? = some { r with phase := q } ∧ q.begun = true := by
  obtain ⟨q, hq, rfl | onward⟩ := h.phase hr
  · exact ⟨_, hq, hb⟩
  · exact ⟨q, hq, onward.begun hb⟩

theorem Happens.panicked (h : Happens w a w') (hr : w.runs[k]? = some r) (hp : r.phase = .panicked) :
    w'.runs[k]? = some r := by
  obtain ⟨q, hq, rfl | onward⟩ := h.phase hr
  · exact hq
  · have lower := onward.left (by rw [hp]; rfl)
    rw [hp] at lower
    exact (Nat.not_lt_zero _ lower).elim

theorem run_begun (hr : v.runs[k]? = some r) (hb : r.phase.begun = true) (h : v.run as = some w) :
    ∃ q, w.runs[k]? = some { r with phase := q } ∧ q.begun = true := by
  refine run_preserves (P := fun x => ∃ q, x.runs[k]? = some { r with phase := q } ∧ q.begun = true) ?_ ⟨_, hr, hb⟩ h
  intro x b x' ⟨q, hq, hb⟩ hs
  exact hs.begun (r := { r with phase := q }) hq hb

theorem run_panicked (hr : v.runs[k]? = some r) (hp : r.phase = .panicked) (h : v.run as = some w) :
    w.runs[k]? = some r :=
  run_preserves (P := fun x => x.runs[k]? = some r) (fun _ _ _ hx hs => hs.panicked hx hp) hr h

theorem Reads.decides (hd : Reads accounts as k t) (h : (initial accounts).run as = some w) (hr : w.runs[k]? = some r) :
    (r.phase.begun = true ↔ t + r.config.duration.nanos < clockLimit) ∧
    (r.phase = .panicked ↔ clockLimit ≤ t + r.config.duration.nanos) := by
  obtain ⟨v, early, v', s, pool, ht, hs, hp, rfl⟩ := hd
  obtain ⟨bs, cs, _, hlater⟩ := ht.rest h
  have reckoned : ∃ q, v'.runs[k]? = some { s with phase := q } ∧ v.Reckons s.config q := by
    cases ht.happens with
    | called k early hs' hc =>
      rw [hs] at hs'
      cases hs'
      exact hc.reckons hs hp
    | worked _ hw => cases hw.worker
  obtain ⟨q, hq, ⟨inRange, begun⟩ | ⟨outOfRange, rfl⟩⟩ := reckoned
  · obtain ⟨q', hq', begun'⟩ := run_begun hq begun hlater
    rw [hr] at hq'
    cases hq'
    have notPanicked : q' ≠ .panicked := by
      rintro rfl
      cases begun'
    exact ⟨iff_of_true begun' inRange, iff_of_false notPanicked (Nat.not_le.2 inRange)⟩
  · have hq' := run_panicked hq rfl hlater
    rw [hr] at hq'
    cases hq'
    exact ⟨iff_of_false (by simp [RunPhase.begun, RunPhase.staffed]) (Nat.not_lt.2 outOfRange),
      iff_of_true rfl outOfRange⟩

theorem Unclaimed.claimed (u : w.Unclaimed) (h : Happens w a w') (c : w'.ClaimedBy k r) :
    ∃ pool, r.phase = .claimed pool := by
  rcases h.cases with outward | ⟨j, early, s, rfl, hcall, hc⟩ | ⟨i, x, e, hx, _, _⟩
  · rcases outward.state with same | ⟨running, _⟩
    · exact (c.standing.started (same.trans u.state)).elim
    · rw [u.state] at running
      cases running
  · rcases outside_step (u.others j s hcall) hc with ⟨q, rfl, _⟩ | ⟨_, _, rfl⟩
    · exact (c.standing.started u.state).elim
    · have call := c.call
      rw [runs_setRun] at call
      split at call
      · obtain ⟨s', _, rfl⟩ := Option.map_eq_some_iff.1 call
        exact ⟨_, rfl⟩
      · exact (c.standing.inside (u.others k r call)).elim
  · exact (u.unstaffed.vacant hx).elim

/-- The call that claimed the runner has read the clock, or that is what it does next. -/
theorem reads_of_run (h : (initial accounts).run as = some w) (c : w.ClaimedBy k r) :
    (∃ t, Reads accounts as k t) ∨ ∃ pool, r.phase = .claimed pool := by
  refine run_induction (P := fun bs v => ∀ r, v.ClaimedBy k r → (∃ t, Reads accounts bs k t) ∨
    ∃ pool, r.phase = .claimed pool) ?_ ?_ h r c
  · intro r c
    exact (c.standing.started rfl).elim
  · intro bs v b v' hb ih hs r c
    rcases orderly_of_run hb with unclaimed | ⟨j, s, d⟩
    · exact .inr (unclaimed.claimed hs c)
    · obtain ⟨q, d'⟩ := d.step hs
      obtain rfl := d'.unique c
      obtain rfl := d'.call_eq c.call
      rcases ih s d with ⟨t, ht⟩ | ⟨pool, hp⟩
      · exact .inl ⟨t, reads_concat hb (step_of_happens hs) ht⟩
      · by_cases own : ∃ early, b = .advanceRun k early
        · obtain ⟨early, rfl⟩ := own
          exact .inl ⟨v.now, reads_last hb (step_of_happens hs) d.call hp⟩
        · obtain ⟨q', hq', follows⟩ := hs.follows d.call fun early he => own ⟨early, he⟩
          cases d'.call_eq hq'
          refine .inr ⟨pool, (follows.stays fun result ended => ?_).trans hp⟩
          rw [hp] at ended
          cases ended

/-! ### The window -/

theorem CallStep.window (h : CallStep w k early r w') (hr : w.runs[k]? = some r) :
    w'.sink.window = w.sink.window ∨ ¬ Outside w.accounts r.config r.phase ∧
      ∃ q, w'.runs[k]? = some { r with phase := q } ∧ q.begun = true := by
  obtain ⟨q, hq, _, onward⟩ := h.advances hr
  cases h with
  | begins hp hd =>
    refine .inr ⟨by rw [hp]; exact id, .started (w.now + r.config.duration.nanos), ?_, rfl⟩
    rw [runs_setRun, if_pos rfl]
    simp only [hr, Option.map_some]
  | notesEnd hp =>
    rw [hp] at onward
    exact .inr ⟨by rw [hp]; exact id, q, hq, onward.begun rfl⟩
  | _ => exact .inl rfl

theorem window_of_run {k : Nat} (h : (initial accounts).run as = some w) (c : w.ClaimedBy k r) (hb : r.phase.begun = false) :
    w.sink.window = {} := by
  have blankOrBegun : w.sink.window = {} ∨ ∃ k r, w.ClaimedBy k r ∧ r.phase.begun = true := by
    refine run_induction (P := fun _ v => v.sink.window = {} ∨ ∃ k r, v.ClaimedBy k r ∧ r.phase.begun = true)
      (.inl rfl) ?_ h
    intro bs v b v' hb ih hs
    rcases ih with blank | ⟨j, s, d, begun⟩
    · have o := orderly_of_run hb
      rcases hs.cases with outward | ⟨j, early, s, rfl, hcall, hc⟩ | ⟨i, x, e, _, _, rfl⟩
      · exact .inl (outward.window.trans blank)
      · rcases hc.window hcall with same | ⟨inside, q, hq, begun⟩
        · exact .inl (same.trans blank)
        · have d := (o.claimedBy_or_outside hcall).resolve_right inside
          obtain ⟨q', d'⟩ := d.step hs
          cases d'.call_eq hq
          exact .inr ⟨j, _, d', begun⟩
      · exact .inl (window_affect.trans blank)
    · obtain ⟨q, d'⟩ := d.step hs
      obtain ⟨q', hq', begun'⟩ := hs.begun d.call begun
      cases d'.call_eq hq'
      exact .inr ⟨j, _, d', begun'⟩
  rcases blankOrBegun with blank | ⟨j, s, d, begun⟩
  · exact blank
  · obtain rfl := c.unique d
    obtain rfl := c.call_eq d.call
    rw [begun] at hb
    cases hb

/-! ### A run that is lost -/

/-- The runner is claimed by a call that is lost: it is busy with a run that has no worker, no sample and no end, and every
other call is turned away. -/
structure Stranded (w : World) (k : Nat) (r : RunCall) : Prop where
  call : w.runs[k]? = some r
  lost : r.phase = .panicked
  busy : w.Busy
  workers : w.workers = #[]
  samples : w.sink.samples = #[]
  window : w.sink.window = {}
  others : ∀ (j : Nat) (s : RunCall), j ≠ k → w.runs[j]? = some s → ∀ result, s.phase.result? = some result →
    result = .error .noAccounts ∨ result = .error .alreadyStarted

theorem stranded_of_run (h : (initial accounts).run as = some w) (c : w.ClaimedBy k r) (hp : r.phase = .panicked) :
    w.Stranded k r := by
  have standing := c.standing
  rw [hp] at standing
  obtain ⟨busy, unstaffed, _⟩ := standing
  have window := window_of_run h c (by rw [hp]; rfl)
  exact ⟨c.call, hp, busy, unstaffed.workers, unstaffed.samples, window,
    fun j s hj hs result hres => outside_result (c.others j s hj hs) hres⟩

/-- Nothing that happens later takes a lost run any further. -/
theorem stranded_for_good (h : (initial accounts).run as = some w) (c : w.ClaimedBy k r) (hp : r.phase = .panicked)
    (hu : w.run bs = some u) : u.Stranded k r := by
  have later : (initial accounts).run (as ++ bs) = some u := run_append_eq_some.2 ⟨w, h, hu⟩
  obtain ⟨q, cu⟩ := c.run hu
  have same := cu.call_eq (run_panicked c.call hp hu)
  rw [same] at cu
  exact stranded_of_run later cu hp

/-! ### A run that is not -/

theorem ClaimedBy.finishes (c : w.ClaimedBy k r) (begun : r.phase.begun = true) :
    ∃ n v q, n ≤ 9 ∧ w.run (List.replicate n (.advanceRun k false)) = some v ∧
      v.runs[k]? = some { r with phase := q } ∧
      (q.result?.isSome = true ∧ v.state = .stopped ∧ v.Closed ∨
        q.staffed = true ∧ v.allTerminated = false ∧ (r.phase.staffed = true → w.allTerminated = false)) := by
  obtain ⟨n, v, q, hn, hrun, cv, same, ends⟩ := c.concludes (.inl begun)
  refine ⟨n, v, q, Nat.le_trans hn (RunPhase.left_of_begun begun), hrun, cv.call, ?_⟩
  rcases ends with ended | ⟨live, staffed⟩
  · obtain ⟨result, hres⟩ := Option.isSome_iff_exists.1 ended
    have reports : v.Reports result := cv.standing.reports hres
    exact .inl ⟨ended, reports.stopped, reports.closed⟩
  · refine .inr ⟨staffed, live, fun before => ?_⟩
    have workers := same before
    rw [allTerminated, workers] at live
    exact live

theorem clockLimit_le_iff (n t : Nat) :
    clockLimit ≤ t + n * 1000000000 ↔ 0x8000000000000000 ≤ t / 1000000000 + n := by
  have limit : clockLimit = 0x8000000000000000 * 1000000000 := rfl
  omega

/-! ### The law -/

/-- A run is runnable exactly if its deadline is an instant of the clock. The call that claimed the runner reads the clock
as its next step. If the deadline can be noted then, the run gets to its end by itself as soon as its workers are gone, with
both ends of its window set. If not, the call is lost there, and the runner stays busy whatever happens later. Durations
reach beyond the clock: every number of seconds below 2^64 can be written, the clock counts below 2^63. -/
theorem runnable_iff_in_range (h : (initial accounts).run as = some w) (hk : Claims accounts as k)
    (hr : w.runs[k]? = some r) :
    ((∃ t, Reads accounts as k t) ∨
      ∃ pool, r.phase = .claimed pool ∧ ∀ early, ∃ w', w.step (.advanceRun k early) = some w') ∧
    (∀ t, Reads accounts as k t →
      (r.phase.begun = true ↔ t + r.config.duration.nanos < clockLimit) ∧
      (r.phase = .panicked ↔ clockLimit ≤ t + r.config.duration.nanos)) ∧
    (r.phase.begun = true → ∃ n v q, n ≤ 9 ∧ w.run (List.replicate n (.advanceRun k false)) = some v ∧
      v.runs[k]? = some { r with phase := q } ∧
      (q.result?.isSome = true ∧ v.state = .stopped ∧ v.Closed ∨
        q.staffed = true ∧ v.allTerminated = false ∧ (r.phase.staffed = true → w.allTerminated = false))) ∧
    (r.phase = .panicked → ∀ bs u, w.run bs = some u → u.Stranded k r) ∧
    ((∃ text, Span.parse text = .ok r.config.duration) ↔
      ∃ n, n < 0x10000000000000000 ∧ r.config.duration = Span.ofSecs n) ∧
    (∀ n t, n < 0x10000000000000000 → r.config.duration = Span.ofSecs n →
      (clockLimit ≤ t + r.config.duration.nanos ↔ 0x8000000000000000 ≤ t / 1000000000 + n)) := by
  have c : w.ClaimedBy k r := claimedBy_of_claims h hk hr
  refine ⟨?_, fun t ht => ht.decides h hr, c.finishes, fun hp bs u hu => stranded_for_good h c hp hu,
    Span.exists_text_iff, fun n t hn hd => ?_⟩
  · rcases reads_of_run h c with read | ⟨pool, hp⟩
    · exact .inl read
    · refine .inr ⟨pool, hp, fun early => ?_⟩
      by_cases hd : w.now + r.config.duration.nanos < clockLimit
      · exact ⟨_, step_of_happens (.called k early c.call (.begins hp hd))⟩
      · exact ⟨_, step_of_happens (.called k early c.call (.leavesRange hp (Nat.not_lt.1 hd)))⟩
  · rw [hd, Span.ofSecs_nanos hn]
    exact clockLimit_le_iff n t

def endless : List Action :=
  let config : WorkloadConfig := { scenario := .stream, concurrency := 1, duration := Span.ofSecs 0xFFFFFFFFFFFFFFFF }
  [.run config false, .advanceRun 0 false, .advanceRun 0 false, .advanceRun 0 false]

theorem stranded_with_endless_run : ∃ w r text, (initial []).run endless = some w ∧ w.runs[0]? = some r ∧
    Span.parse text = .ok r.config.duration ∧ r.phase = .panicked ∧ w.state = .running ∧
    ∀ bs u, w.run bs = some u → u.Stranded 0 r := by
  have facts : ((initial []).run endless).map (fun w => (w.state, w.runs.size, (w.runs[0]?).map fun r =>
      (decide (r.config.duration = Span.ofSecs 0xFFFFFFFFFFFFFFFF), r.phase matches .panicked))) =
      some (.running, 1, some (true, true)) := by decide +kernel
  obtain ⟨w, h, hw⟩ := Option.map_eq_some_iff.1 facts
  simp only [Prod.mk.injEq, Option.map_eq_some_iff, decide_eq_true_eq] at hw
  obtain ⟨state, alone, r, hr, duration, hp⟩ := hw
  have lost : r.phase = .panicked := by
    revert hp
    cases r.phase <;> simp
  have hk : Claims [] endless 0 := claims_of_alone h (by rw [state]; decide) alone
  obtain ⟨_, _, _, stranded, written, _⟩ := runnable_iff_in_range h hk hr
  obtain ⟨text, parsed⟩ := written.2 ⟨0xFFFFFFFFFFFFFFFF, by decide, duration⟩
  exact ⟨w, r, text, h, hr, parsed, lost, state, stranded lost⟩

end LedgerLoad.Load.World
