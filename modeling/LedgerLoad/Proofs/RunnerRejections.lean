import LedgerLoad.Proofs.RunnerRenumbering

/-!
Run calls that are turned away, and how little they leave behind.

A call that is turned away changes nothing but how far it has come, and can be left out of a schedule. A runner on which
nothing but such calls were made is as good as a fresh one.
-/

set_option autoImplicit false

namespace LedgerLoad.Load.World

variable {v v' w w' : World} {a : Action} {as bs : List Action} {i k : Nat} {x : Worker} {r : RunCall} {early : Bool}
  {accounts : List String}

/-! ### A call that is left out -/

theorem renumber_id (a : Action) : a.renumber id = a := by
  cases a <;> rfl

theorem setRun_setRun {p q : RunPhase} : (w.setRun k p).setRun k q = w.setRun k q := by
  have same : (w.runs.modify k fun r => { r with phase := p }).modify k (fun r => { r with phase := q }) =
      w.runs.modify k fun r => { r with phase := q } := by
    refine Array.ext_getElem? fun j => ?_
    rw [Array.getElem?_modify, Array.getElem?_modify, Array.getElem?_modify]
    split
    · rw [Option.map_map]
      rfl
    · rfl
  unfold setRun
  rw [same]

theorem recasts_withdrawn (k : Nat) :
    Recasts (fun runs => runs.modify k fun r => { r with phase := .entered }) id (fun j => j ≠ k) where
  find runs j hj := by rw [id_eq, Array.getElem?_modify, if_neg (Ne.symm hj)]
  change runs j f hj := by
    refine Array.ext_getElem? fun i => ?_
    rw [id_eq, Array.getElem?_modify, Array.getElem?_modify, Array.getElem?_modify, Array.getElem?_modify]
    by_cases hi : j = i
    · rw [if_pos hi, if_neg (by omega), if_neg (by omega), if_pos hi]
    · rw [if_neg hi, if_neg hi]
  extend runs config monitored := by
    refine Array.ext_getElem? fun i => ?_
    rw [Array.getElem?_push, Array.getElem?_modify, Array.getElem?_modify, Array.getElem?_push, Array.size_modify]
    by_cases hi : i = runs.size
    · subst hi
      rw [if_pos rfl, if_pos rfl]
      split <;> rfl
    · rw [if_neg hi, if_neg hi]

theorem step_withdrawn (ha : a.call? ≠ some k) (h : w.step a = some w') :
    (w.setRun k .entered).step a = some (w'.setRun k .entered) := by
  have carried := (recasts_withdrawn k).step (w := w) (a := a) fun j hj he => ha (he ▸ hj)
  rw [renumber_id, h] at carried
  exact carried.symm

theorem outside_of_run (h : (initial accounts).run as = some w) (hk : ¬ Claims accounts as k) (hr : w.runs[k]? = some r) :
    Outside w.accounts r.config r.phase := by
  rcases claims_of_run h with ⟨u, _⟩ | ⟨j, s, c, hj⟩
  · exact u.others k r hr
  · exact c.others k r (fun he => hk ((hj k).2 he)) hr

theorem setRun_of_step (h : (initial accounts).run as = some v) (hk : ¬ Claims accounts (as ++ [.advanceRun k early]) k)
    (ha : v.step (.advanceRun k early) = some v') : ∃ q, v' = v.setRun k q := by
  have before : ¬ Claims accounts as k := fun hc => hk ((claims_concat h ha).2 (.inl hc))
  cases step_iff.1 ha with
  | called k early hr hc =>
    rcases outside_step (outside_of_run h before hr) hc with ⟨q, same, _⟩ | ⟨notStarted, _, rfl⟩
    · exact ⟨q, same⟩
    · refine (hk ((claims_concat h ha).2 (.inr ⟨⟨early, rfl⟩, notStarted, ?_⟩))).elim
      simp [setRun, move, Lifecycle.advance, notStarted]
  | worked _ hw => cases hw.worker

theorem WorkerStep.no_call {e : Effect} (h : WorkerStep w i x a e) : a.call? = none := by
  rcases h with h | h <;> cases h <;> rfl

theorem Happens.monitored (h : Happens w a w') (hr : w.runs[k]? = some r)
    (plain : ∀ r, w'.runs[k]? = some r → r.monitored = false) : r.monitored = false := by
  obtain ⟨q, hq, _⟩ := h.phase hr
  have same := plain _ hq
  exact same

/-- A call that neither claimed the runner nor was monitored can be left out of a schedule: everything else happens just
the same. Its own steps are dropped, and setting the call back hides them. -/
theorem run_without (h : (initial accounts).run as = some w) (hk : ¬ Claims accounts as k)
    (plain : ∀ r, w.runs[k]? = some r → r.monitored = false) :
    (initial accounts).run (as.filter fun a => a.call? != some k) = some (w.setRun k .entered) := by
  refine run_induction (P := fun bs v => ¬ Claims accounts bs k → (∀ r, v.runs[k]? = some r → r.monitored = false) →
    (initial accounts).run (bs.filter fun a => a.call? != some k) = some (v.setRun k .entered)) ?_ ?_ h hk plain
  · intro _ _
    rfl
  · intro bs v b v' hb ih hs unclaimed plain
    have hstep := step_of_happens hs
    have before : ¬ Claims accounts bs k := fun hc => unclaimed ((claims_concat hb hstep).2 (.inl hc))
    have plainBefore : ∀ r, v.runs[k]? = some r → r.monitored = false := fun r hr => hs.monitored hr plain
    have kept := ih before plainBefore
    rw [List.filter_append]
    by_cases own : b.call? = some k
    · have dropped : [b].filter (fun a => a.call? != some k) = [] := by simp [own]
      rw [dropped, List.append_nil, kept]
      refine congrArg some ?_
      cases hs with
      | called j early hr hc =>
        cases own
        obtain ⟨q, rfl⟩ := setRun_of_step hb unclaimed hstep
        exact setRun_setRun.symm
      | attached j stats hr ended monitored =>
        cases own
        rw [plainBefore _ hr] at monitored
        cases monitored
      | worked hx hw =>
        rw [hw.no_call] at own
        cases own
      | _ => cases own
    · have same : [b].filter (fun a => a.call? != some k) = [b] := by simp [own]
      rw [same]
      exact run_concat kept (step_withdrawn own hstep)

/-! ### A runner on which nothing but rejected calls were made -/

def after (old : Array RunCall) : World → World := recast fun runs => old ++ runs

theorem recasts_after (old : Array RunCall) : Recasts (fun runs => old ++ runs) (fun k => old.size + k) fun _ => True where
  find runs k _ := by
    rw [Array.getElem?_append_right (Nat.le_add_right _ _), Nat.add_sub_cancel_left]
  change runs k f _ := by
    refine Array.ext_getElem? fun i => ?_
    rw [Array.getElem?_modify]
    by_cases hi : i < old.size
    · rw [if_neg (by omega), Array.getElem?_append_left hi, Array.getElem?_append_left hi]
    · rw [Array.getElem?_append_right (by omega), Array.getElem?_append_right (by omega), Array.getElem?_modify]
      by_cases he : old.size + k = i
      · rw [if_pos he, if_pos (by omega)]
      · rw [if_neg he, if_neg (by omega)]
  extend runs config monitored := Array.append_push.symm

/-- The same runner before any run call was made on it, at this instant and with the stops requested so far. -/
def renewed (w : World) : World :=
  { initial w.accounts with now := w.now, stopped := w.stopped, stopping := w.stopping }

/-- Nothing of a fresh runner has changed but the time, the stops and the run calls. -/
structure Pristine (w : World) : Prop where
  state : w.state = .notStarted
  sink : w.sink = {}
  unpoisoned : w.poisoned = false
  rate : w.rate = 0
  deadline : w.deadline = 0
  pool : w.pool = none
  workers : w.workers = #[]
  log : w.log = []

theorem Pristine.eq_after (p : w.Pristine) : w = w.renewed.after w.runs := by
  obtain ⟨state, sink, unpoisoned, rate, deadline, pool, workers, log⟩ := p
  cases w
  simp only at state sink unpoisoned rate deadline pool workers log
  subst state sink unpoisoned rate deadline pool workers log
  simp [renewed, after, recast, initial]

theorem Pristine.step (p : w.Pristine) (u : w.Unclaimed) (h : Happens w a w') (hs : w'.state = .notStarted)
    (plain : ∀ (k : Nat) (r : RunCall), w.runs[k]? = some r → r.monitored = false) : w'.Pristine := by
  cases h with
  | passes | signalled | stopCalled | runCalled =>
    exact ⟨p.state, p.sink, p.unpoisoned, p.rate, p.deadline, p.pool, p.workers, p.log⟩
  | stopMoves => exact ⟨hs, p.sink, p.unpoisoned, p.rate, p.deadline, p.pool, p.workers, p.log⟩
  | attached k stats hr ended monitored =>
    rw [plain k _ hr] at monitored
    cases monitored
  | called k early hr hc =>
    rcases outside_step (u.others k _ hr) hc with ⟨q, rfl, _⟩ | ⟨notStarted, _, rfl⟩
    · exact ⟨p.state, p.sink, p.unpoisoned, p.rate, p.deadline, p.pool, p.workers, p.log⟩
    · simp [setRun, move, Lifecycle.advance, notStarted] at hs
  | worked hx => exact (u.unstaffed.vacant hx).elim

theorem notStarted_before (h : Happens w a w') (hs : w'.state = .notStarted) : w.state = .notStarted := by
  rcases state_step h with same | next
  · exact same.symm.trans hs
  · rw [hs] at next
    cases hw : w.state <;> rw [hw] at next <;> cases next

theorem pristine_of_run (h : (initial accounts).run as = some w) (hs : w.state = .notStarted)
    (plain : ∀ (k : Nat) (r : RunCall), w.runs[k]? = some r → r.monitored = false) : w.Pristine := by
  refine run_induction (P := fun _ v => v.state = .notStarted →
    (∀ (k : Nat) (r : RunCall), v.runs[k]? = some r → r.monitored = false) → v.Pristine) ?_ ?_ h hs plain
  · intro _ _
    exact ⟨rfl, rfl, rfl, rfl, rfl, rfl, rfl, rfl⟩
  · intro bs v b v' hb ih hs' state plain
    have before : v.state = .notStarted := notStarted_before hs' state
    have plainBefore : ∀ (k : Nat) (r : RunCall), v.runs[k]? = some r → r.monitored = false :=
      fun k r hr => hs'.monitored hr (plain k)
    have unclaimed : v.Unclaimed := unclaimed_of_notStarted (orderly_of_run hb) before
    exact (ih before plainBefore).step unclaimed hs' state plainBefore

/-- What is done with new calls on such a runner is what is done on a fresh one. -/
theorem Pristine.run (p : w.Pristine) :
    w.run (bs.map (Action.renumber fun k => w.runs.size + k)) = (w.renewed.run bs).map (after w.runs) := by
  have same : w.renewed.recast (fun runs => w.runs ++ runs) = w := p.eq_after.symm
  have carried : (w.renewed.run bs).map (after w.runs) =
      (w.renewed.recast fun runs => w.runs ++ runs).run (bs.map (Action.renumber fun k => w.runs.size + k)) :=
    (recasts_after w.runs).run fun _ _ _ _ => trivial
  rw [same] at carried
  exact carried.symm

/-! ### Who is turned away, and who is let in -/

theorem not_supplied_iff {c : WorkloadConfig} : ¬ c.Supplied accounts ↔ c.scenario = .balance ∧ accounts = [] := by
  simp [WorkloadConfig.Supplied]

theorem noAccounts_iff {result : Except RunnerError Unit} (o : w.Orderly) (hr : w.runs[k]? = some r)
    (hres : r.phase.result? = some result) :
    result = .error .noAccounts ↔ r.config.scenario = .balance ∧ w.accounts = [] := by
  rw [← not_supplied_iff]
  rcases o.claimedBy_or_outside hr with c | outside
  · have supplied : r.config.Supplied w.accounts := by
      have standing := c.standing
      cases hp : r.phase with
      | «over» result | returned result =>
        rw [hp] at standing
        exact standing.2.2.1.supplied
      | _ =>
        rw [hp] at hres
        cases hres
    have ended : result ≠ .error .noAccounts := by
      rcases (standing_result c.standing hres).2 with rfl | ⟨fault, rfl⟩
      · exact fun h => nomatch h
      · exact fun h => nomatch h
    exact iff_of_false ended fun h => h supplied
  · cases hp : r.phase with
    | «over» outcome | returned outcome =>
      rw [hp] at outside hres
      cases hres
      rcases outside with ⟨rfl, lacking⟩ | ⟨rfl, supplied⟩
      · exact iff_of_true rfl lacking
      · exact iff_of_false (fun h => nomatch h) fun h => h supplied
    | _ =>
      rw [hp] at hres
      cases hres

theorem CallStep.not_alreadyStarted (h : CallStep w k early r w') (hs : w.state = .notStarted)
    (hn : r.phase.result? ≠ some (.error .alreadyStarted)) :
    ∃ q, w'.runs = (w.setRun k q).runs ∧ q.result? ≠ some (.error .alreadyStarted) := by
  cases h with
  | comesLate _ started => exact absurd hs started
  | closes hp =>
    rename_i faults
    refine ⟨_, rfl, ?_⟩
    cases faults <;> simp [RunPhase.result?, resultOf]
  | returns hp =>
    rw [hp] at hn
    exact ⟨_, rfl, hn⟩
  | _ => exact ⟨_, rfl, by simp [RunPhase.result?]⟩

theorem not_alreadyStarted (h : (initial accounts).run as = some w) (hs : w.state = .notStarted)
    (hr : w.runs[k]? = some r) : r.phase.result? ≠ some (.error .alreadyStarted) := by
  refine run_induction (P := fun _ v => v.state = .notStarted → ∀ (k : Nat) (r : RunCall), v.runs[k]? = some r →
    r.phase.result? ≠ some (.error .alreadyStarted)) ?_ ?_ h hs k r hr
  · intro _ k r hr
    cases hr
  · intro bs v b v' _ ih happens state k r' hr'
    have before := ih (notStarted_before happens state)
    rcases happens.cases with outward | ⟨j, early, s, rfl, hs, hc⟩ | ⟨i, x, e, _, _, rfl⟩
    · cases hr : v.runs[k]? with
      | none => simp [outward.new k r' hr' hr, RunPhase.result?]
      | some r =>
        obtain ⟨q, hq, follows⟩ := outward.old k r hr
        rw [hr'] at hq
        cases hq
        have told := before k r hr
        rcases follows with same | ⟨result, ended, same⟩
        · rwa [same]
        · rw [ended] at told
          rwa [same]
    · obtain ⟨q, hruns, hq⟩ := hc.not_alreadyStarted (notStarted_before happens state) (before j s hs)
      rw [hruns, runs_setRun] at hr'
      split at hr'
      · rename_i same
        subst same
        rw [hs] at hr'
        cases hr'
        exact hq
      · exact before k r' hr'
    · exact before k r' hr'

/-- A runner in its first state lets in whoever has what it needs. -/
theorem admits {c : WorkloadConfig} (h : (initial accounts).run as = some w) (hs : w.state = .notStarted)
    (supplied : c.Supplied w.accounts) (monitored e₁ e₂ : Bool) :
    ∃ v, w.run [.run c monitored, .advanceRun w.runs.size e₁, .advanceRun w.runs.size e₂] = some v ∧ v.state = .running ∧
      Claims accounts (as ++ [.run c monitored, .advanceRun w.runs.size e₁, .advanceRun w.runs.size e₂]) w.runs.size := by
  let call : RunCall := { config := c, monitored := monitored }
  let w₁ : World := { w with runs := w.runs.push call }
  have found : w₁.runs[w.runs.size]? = some call := Array.getElem?_push_size
  have checks : w₁.step (.advanceRun w.runs.size e₁) = some (w₁.setRun w.runs.size (.checked (c.poolOf w.accounts))) := by
    cases hb : c.scenario with
    | stream =>
      rw [WorkloadConfig.poolOf, hb]
      exact step_of_happens (.called _ _ found (.needsNoPool rfl hb))
    | balance =>
      rw [WorkloadConfig.poolOf, hb]
      exact step_of_happens (.called _ _ found (.findsPool rfl hb (supplied hb)))
  let w₂ := w₁.setRun w.runs.size (.checked (c.poolOf w.accounts))
  have checked : w₂.runs[w.runs.size]? = some { call with phase := .checked (c.poolOf w.accounts) } := by
    rw [runs_setRun, if_pos rfl, found]
    rfl
  let w₃ := (w₂.move .notStarted .running).setRun w.runs.size (.claimed (c.poolOf w.accounts))
  have claims : w₂.step (.advanceRun w.runs.size e₂) = some w₃ := step_of_happens (.called _ _ checked (.claims rfl hs))
  have running : w₃.state = .running := by
    change w.state.advance .notStarted .running = .running
    rw [hs]
    rfl
  have before : (initial accounts).run (as ++ [.run c monitored, .advanceRun w.runs.size e₁]) = some w₂ :=
    run_append_eq_some.2 ⟨w, h, run_cons_eq_some.2 ⟨w₁, rfl, run_cons_eq_some.2 ⟨w₂, checks, rfl⟩⟩⟩
  have claimed := (claims_concat (k := w.runs.size) before claims).2 (.inr ⟨⟨e₂, rfl⟩, hs, by rw [running]; decide⟩)
  rw [List.append_assoc] at claimed
  exact ⟨w₃, run_cons_eq_some.2 ⟨w₁, rfl, run_cons_eq_some.2 ⟨w₂, checks, run_cons_eq_some.2 ⟨w₃, claims, rfl⟩⟩⟩,
    running, claimed⟩

/-! ### The law -/

theorem claims_append (hc : Claims accounts as k) : Claims accounts (as ++ bs) k := by
  obtain ⟨v, early, v', ⟨cs, ds, rfl, hv, hs⟩, state, left⟩ := hc
  exact ⟨v, early, v', ⟨cs, ds ++ bs, by simp, hv, hs⟩, state, left⟩

theorem not_claims_of_rejected {e : RunnerError} (h : (initial accounts).run as = some w) (hr : w.runs[k]? = some r)
    (hres : r.phase.result? = some (.error e)) (he : e = .noAccounts ∨ e = .alreadyStarted) : ¬ Claims accounts as k := by
  intro hk
  have c : w.ClaimedBy k r := claimedBy_of_claims h hk hr
  rcases (standing_result c.standing hres).2 with ok | ⟨fault, failed⟩
  · cases ok
  · cases failed
    rcases he with he | he <;> cases he

/-- A run call that is turned away leaves no trace. None of its steps changes anything but how far it has come, and without
them everything else happens just the same. It lacks accounts exactly if it needs them and there are none, whatever the
state of the runner, and then it is told so at once. As long as nobody was let in, the runner lets in whoever has what it
needs, a stream run in any case, and from there does what a fresh runner does. -/
theorem rejected_run_leaves_no_trace (h : (initial accounts).run as = some w) :
    (∀ k r e, w.runs[k]? = some r → r.phase.result? = some (.error e) → e = .noAccounts ∨ e = .alreadyStarted →
      (∀ v early v', (initial accounts).Takes as v (.advanceRun k early) v' → ∃ q, v' = v.setRun k q) ∧
      (r.monitored = false →
        (initial accounts).run (as.filter fun a => a.call? != some k) = some (w.setRun k .entered))) ∧
    (∀ k r, w.runs[k]? = some r →
      (∀ result, r.phase.result? = some result →
        (result = .error .noAccounts ↔ r.config.scenario = .balance ∧ accounts = [])) ∧
      (r.phase = .entered → r.config.scenario = .balance → accounts = [] → ∀ early,
        w.step (.advanceRun k early) = some (w.setRun k (.over (.error .noAccounts))))) ∧
    (w.state = .notStarted →
      (∀ c monitored e₁ e₂, c.scenario = .stream ∨ accounts ≠ [] → ∃ v,
        w.run [.run c monitored, .advanceRun w.runs.size e₁, .advanceRun w.runs.size e₂] = some v ∧ v.state = .running ∧
        Claims accounts (as ++ [.run c monitored, .advanceRun w.runs.size e₁, .advanceRun w.runs.size e₂])
          w.runs.size) ∧
      ((∀ (k : Nat) (r : RunCall), w.runs[k]? = some r → r.monitored = false) → ∀ bs,
        w.run (bs.map (Action.renumber fun k => w.runs.size + k)) = (w.renewed.run bs).map (after w.runs))) := by
  have own : w.accounts = accounts := accounts_of_run h
  refine ⟨fun k r e hr hres he => ⟨fun v early v' ht => ?_, fun plain => ?_⟩, fun k r hr => ⟨fun result hres => ?_, ?_⟩,
    fun hs => ⟨fun c monitored e₁ e₂ hc => ?_, fun plain bs => (pristine_of_run h hs plain).run⟩⟩
  · have hk := not_claims_of_rejected h hr hres he
    obtain ⟨bs, cs, rfl, hv, ha⟩ := ht
    refine setRun_of_step hv (fun claimed => hk ?_) ha
    have extended : Claims accounts (bs ++ [.advanceRun k early] ++ cs) k := claims_append claimed
    rw [List.append_assoc] at extended
    exact extended
  · refine run_without h (not_claims_of_rejected h hr hres he) fun s hs => ?_
    rw [hr] at hs
    cases hs
    exact plain
  · rw [← own]
    exact noAccounts_iff (orderly_of_run h) hr hres
  · intro hp hb empty early
    exact step_of_happens (.called k early hr (.lacksPool hp hb (own.trans empty)))
  · refine admits h hs ?_ monitored e₁ e₂
    rw [own]
    intro hb
    rcases hc with stream | stocked
    · rw [stream] at hb
      cases hb
    · exact stocked

def destitute : List Action :=
  let config : WorkloadConfig := { scenario := .balance, concurrency := 1, duration := Span.ofSecs 1 }
  [.run config false, .advanceRun 0 false, .advanceRun 0 false]

theorem fresh_after_destitute_run : ∃ w r, (initial []).run destitute = some w ∧ w.runs[0]? = some r ∧
    r.phase.result? = some (.error .noAccounts) ∧
    (initial []).run (destitute.take 1) = some (w.setRun 0 .entered) ∧
    (∀ c, c.scenario = .stream → ∃ v, w.run [.run c false, .advanceRun 1 false, .advanceRun 1 false] = some v ∧
      v.state = .running) ∧
    ∀ bs, w.run (bs.map (Action.renumber fun k => 1 + k)) = (w.renewed.run bs).map (after w.runs) := by
  have facts : ((initial []).run destitute).map (fun w => (w.state, w.runs.size, (w.runs[0]?).map fun r =>
      (r.phase.result?.isSome, decide (r.config.scenario = .balance), r.monitored))) =
      some (.notStarted, 1, some (true, true, false)) := by decide +kernel
  obtain ⟨w, h, hw⟩ := Option.map_eq_some_iff.1 facts
  simp only [Prod.mk.injEq, Option.map_eq_some_iff, decide_eq_true_eq] at hw
  obtain ⟨state, alone, r, hr, told, balance, plain⟩ := hw
  obtain ⟨result, hres⟩ := Option.isSome_iff_exists.1 told
  obtain ⟨rejected, lacks, first⟩ := rejected_run_leaves_no_trace h
  obtain ⟨lets, fresh⟩ := first state
  rw [alone] at lets fresh
  have refused : result = .error .noAccounts := ((lacks 0 r hr).1 result hres).2 ⟨balance, rfl⟩
  subst refused
  refine ⟨w, r, h, hr, hres, (rejected 0 r _ hr hres (.inl rfl)).2 plain, fun c hc => ?_, fresh fun k s hs => ?_⟩
  · obtain ⟨v, hv, running, _⟩ := lets c false false false (.inl hc)
    exact ⟨v, hv, running⟩
  · have inside : k < w.runs.size := (Array.getElem?_eq_some_iff.1 hs).1
    obtain rfl : k = 0 := by omega
    rw [hr] at hs
    cases hs
    exact plain

end LedgerLoad.Load.World
