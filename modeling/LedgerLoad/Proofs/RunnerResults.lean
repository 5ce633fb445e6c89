import LedgerLoad.Monitor
import LedgerLoad.Proofs.RunnerProgress

/-!
What becomes of the results of a run after the run.

The samples and the window of a run that has returned are never touched again. Its resource figures are: a monitored call
hands over what its monitor read whether or not it was let in, so each later one, which is turned away, replaces them.
-/

set_option autoImplicit false

namespace LedgerLoad

def RunReport.withResources (x : RunReport) (figures : Option ResourceStats) : RunReport :=
  { x with
    metadata := { x.metadata with
      cpuUsageAvg := figures.map (·.cpuAvgPercent)
      memoryMbAvg := figures.map (·.memoryAvgMb)
      memoryMbPeak := figures.map (·.memoryPeakMb) }
    statistics := { x.statistics with resources := figures } }

namespace Load

def Action.figures? : Action → Option ResourceStats
  | .attach _ stats => some stats
  | _ => none

def Action.ofCaller : Action → Bool
  | .run _ _ | .advanceRun _ _ | .attach _ _ | .stop | .stopMoves => true
  | _ => false

namespace World

variable {u v v' w w' : World} {a : Action} {as bs : List Action} {k : Nat} {r : RunCall} {early : Bool}
  {result : Except RunnerError Unit} {accounts : List String}

/-! ### One step after the run -/

theorem CallStep.unfinished (h : CallStep w k early r w') : r.phase ≠ .returned result := by
  intro hp
  have taken := advanceRun_of_callStep h
  simp only [World.advanceRun, hp] at taken
  cases taken

theorem ClaimedBy.settled_step (c : w.ClaimedBy k r) (hp : r.phase = .returned result) (h : Happens w a w') :
    w'.ClaimedBy k r := by
  have notOwn : ∀ early, a ≠ .advanceRun k early := by
    rintro early rfl
    cases h with
    | called k early hr hc =>
      obtain rfl := c.call_eq hr
      exact hc.unfinished hp
    | worked _ hw => cases hw.worker
  obtain ⟨q, hq, follows⟩ := h.follows c.call notOwn
  obtain ⟨q', c'⟩ := c.step h
  have same : q = r.phase := by
    refine follows.stays fun outcome ended => ?_
    rw [hp] at ended
    cases ended
  rw [c'.call_eq hq, same] at c'
  exact c'

theorem ClaimedBy.settled_sink (c : w.ClaimedBy k r) (hp : r.phase = .returned result) (h : Happens w a w') :
    w'.sink = { w.sink with resources := a.figures?.or w.sink.resources } := by
  cases h with
  | passes | signalled | stopCalled | stopMoves | runCalled | attached => rfl
  | @called j early s _ hs hc =>
    have other : j ≠ k := by
      rintro rfl
      obtain rfl := c.call_eq hs
      exact hc.unfinished hp
    rcases outside_step (c.others j s other hs) hc with ⟨q, rfl, _⟩ | ⟨notStarted, _⟩
    · rfl
    · exact (c.standing.started notStarted).elim
  | worked hx hw =>
    have standing := c.standing
    rw [hp] at standing
    obtain ⟨_, _, _, _, faults, gone, _⟩ := standing
    exact (gone.no_step hx hw).elim

theorem ClaimedBy.settled_attach {j : Nat} {stats : ResourceStats} (c : w.ClaimedBy k r)
    (hp : r.phase = .returned result) (h : Happens w (.attach j stats) w') :
    j ≠ k ∧ ∃ s, w.runs[j]? = some s ∧ s.monitored = true ∧
      (s.phase.result? = some (.error .noAccounts) ∨ s.phase.result? = some (.error .alreadyStarted)) := by
  cases h with
  | @attached _ _ s outcome hs ended monitored =>
    have other : j ≠ k := by
      rintro rfl
      obtain rfl := c.call_eq hs
      rw [hp] at ended
      cases ended
    refine ⟨other, s, hs, monitored, ?_⟩
    have told : s.phase.result? = some outcome := by rw [ended]; rfl
    rcases outside_result (c.others j s other hs) told with rfl | rfl
    · exact .inl told
    · exact .inr told
  | worked _ hw => cases hw.worker

/-! ### All that comes after the run -/

theorem ClaimedBy.settled_run (c : u.ClaimedBy k r) (hp : r.phase = .returned result) (h : u.run bs = some w) :
    w.ClaimedBy k r ∧ w.sink = { u.sink with resources := (bs.filterMap Action.figures?).getLast?.or u.sink.resources } := by
  refine run_induction (P := fun cs v => v.ClaimedBy k r ∧
    v.sink = { u.sink with resources := (cs.filterMap Action.figures?).getLast?.or u.sink.resources }) ⟨c, rfl⟩ ?_ h
  intro cs v b v' _ ⟨d, before⟩ hs
  refine ⟨d.settled_step hp hs, ?_⟩
  rw [d.settled_sink hp hs, before, List.filterMap_append]
  cases hf : b.figures? with
  | none => simp [hf]
  | some stats => simp [hf]

theorem report_of_sink {figures : Option ResourceStats} (h : w.sink = { u.sink with resources := figures })
    (config : WorkloadConfig) (protocol : Protocol) :
    w.sink.report config protocol = (u.sink.report config protocol).withResources figures := by
  rw [h]
  rfl

/-- The results of a run that has returned. Whatever is called on the runner later, its samples, its window and what it was
counted as stay as they are; its resource figures are those of the last monitored call that ended later, each of which was
turned away, and its own if there is none; and the report differs in those figures at most. -/
theorem results_of_returned_run (h : (initial accounts).run as = some u) (hk : Claims accounts as k)
    (hr : u.runs[k]? = some r) (hp : r.phase = .returned result) (hw : u.run bs = some w) :
    (u.state = .stopped ∧ w.state = .stopped ∧ w.runs[k]? = some r) ∧
    (w.sink.samples = u.sink.samples ∧ w.sink.window = u.sink.window ∧ w.sink.metrics = u.sink.metrics) ∧
    w.sink.resources = (bs.filterMap Action.figures?).getLast?.or u.sink.resources ∧
    (∀ config protocol, w.sink.report config protocol =
      (u.sink.report config protocol).withResources w.sink.resources) ∧
    ((∀ a ∈ bs, a.figures? = none) → w.sink = u.sink) ∧
    (∀ v j stats v', u.Takes bs v (.attach j stats) v' → j ≠ k ∧ ∃ s, v.runs[j]? = some s ∧ s.monitored = true ∧
      (s.phase.result? = some (.error .noAccounts) ∨ s.phase.result? = some (.error .alreadyStarted))) := by
  have c : u.ClaimedBy k r := claimedBy_of_claims h hk hr
  obtain ⟨d, sink⟩ := c.settled_run hp hw
  have ended : r.phase.result? = some result := by rw [hp]; rfl
  have stopped := standing_result c.standing ended
  have still := standing_result d.standing ended
  refine ⟨⟨stopped.1, still.1, d.call⟩, ?_, ?_, fun config protocol => ?_, fun silent => ?_, fun v j stats v' ht => ?_⟩
  · rw [sink]
    exact ⟨rfl, rfl, rfl⟩
  · rw [sink]
  · rw [report_of_sink sink, sink]
  · have empty : bs.filterMap Action.figures? = [] := List.filterMap_eq_nil_iff.2 silent
    rw [sink, empty]
    rfl
  · obtain ⟨cs, _, hv, _⟩ := ht.rest hw
    exact (c.settled_run hp hv).1.settled_attach hp ht.happens

def supervised : List Action :=
  let config : WorkloadConfig := { scenario := .stream, concurrency := 1, duration := Span.ofSecs 1 }
  [.signal, .run config true, .advanceRun 0 false, .advanceRun 0 false, .advanceRun 0 false, .advanceRun 0 false,
    .advanceRun 0 false, .advanceRun 0 false, .work 0, .advanceRun 0 false, .advanceRun 0 false, .advanceRun 0 false,
    .advanceRun 0 false, .attach 0 (Readings.push {} ⟨0, 104857600⟩).stats]

/-- A second monitored call on the same runner. It is turned away before its monitor takes a reading. -/
def repeated : List Action :=
  let config : WorkloadConfig := { scenario := .stream, concurrency := 1, duration := Span.ofSecs 1 }
  [.run config true, .advanceRun 1 false, .advanceRun 1 false, .attach 1 ({} : Readings).stats]

theorem repeated_after_supervised : ∃ u r result w, (initial []).run supervised = some u ∧ Claims [] supervised 0 ∧
    u.runs[0]? = some r ∧ r.phase = .returned result ∧ u.run repeated = some w ∧
    u.sink.resources.map (·.sampleCount) = some 1 ∧ w.sink.resources.map (·.sampleCount) = some 0 := by
  have facts : ((initial []).run supervised).bind (fun u => (u.run repeated).map fun w =>
      (u.state, u.runs.size, (u.runs[0]?).map fun r => (r.phase matches .returned _),
        (u.sink.resources.map (·.sampleCount), w.sink.resources.map (·.sampleCount)))) =
      some (.stopped, 1, some true, (some 1, some 0)) := by decide +kernel
  obtain ⟨u, hu, rest⟩ := Option.bind_eq_some_iff.1 facts
  obtain ⟨w, hw, values⟩ := Option.map_eq_some_iff.1 rest
  simp only [Prod.mk.injEq, Option.map_eq_some_iff] at values
  obtain ⟨state, alone, ⟨r, hr, returned⟩, before, after⟩ := values
  have hk : Claims [] supervised 0 := claims_of_alone hu (by rw [state]; decide) alone
  obtain ⟨result, hp⟩ : ∃ result, r.phase = .returned result := by
    revert returned
    cases r.phase <;> simp
  exact ⟨u, r, result, w, hu, hk, hr, hp, hw, Option.map_eq_some_iff.2 before, Option.map_eq_some_iff.2 after⟩

theorem figures_of_repeated_call : ∃ u w, (initial []).run supervised = some u ∧ u.run repeated = some w ∧
    w.sink.samples = u.sink.samples ∧ w.sink.window = u.sink.window ∧ w.state = .stopped ∧
    w.sink.resources = some ({} : Readings).stats ∧
    ∀ config protocol, w.sink.report config protocol =
      (u.sink.report config protocol).withResources (some ({} : Readings).stats) := by
  obtain ⟨u, r, result, w, hu, hk, hr, hp, hw, _⟩ := repeated_after_supervised
  obtain ⟨⟨_, stopped, _⟩, ⟨samples, window, _⟩, resources, report, _⟩ := results_of_returned_run hu hk hr hp hw
  have last : w.sink.resources = some ({} : Readings).stats := resources
  rw [last] at report
  exact ⟨u, w, hu, hw, samples, window, stopped, last, report⟩

/-- The figures that a run left behind do not outlast every call made on its runner later. -/
theorem figures_replaced_after_run : ¬ ∀ (accounts : List String) (as bs : List Action) (u w : World) (k : Nat)
    (r : RunCall) (result : Except RunnerError Unit),
    (initial accounts).run as = some u → Claims accounts as k → u.runs[k]? = some r → r.phase = .returned result →
    (∀ a ∈ bs, a.ofCaller = true) → u.run bs = some w →
    w.sink.samples = u.sink.samples ∧ w.sink.window = u.sink.window ∧ w.sink.resources = u.sink.resources ∧
      ∀ config protocol, w.sink.report config protocol = u.sink.report config protocol := by
  intro frozen
  obtain ⟨u, r, result, w, hu, hk, hr, hp, hw, before, after⟩ := repeated_after_supervised
  have calls : ∀ a ∈ repeated, a.ofCaller = true := by simp [repeated, Action.ofCaller]
  obtain ⟨_, _, same, _⟩ := frozen [] supervised repeated u w 0 r result hu hk hr hp calls hw
  rw [same, before] at after
  cases after

end World

end Load

end LedgerLoad
