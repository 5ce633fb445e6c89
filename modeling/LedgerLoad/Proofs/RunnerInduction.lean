import LedgerLoad.Proofs.RunnerDeadlines
import LedgerLoad.Proofs.RunnerWinding

/-!
Inductions along a run: over the steps of the call that has claimed the runner, and over the steps of one of its workers.
-/

set_option autoImplicit false

namespace LedgerLoad.Load

namespace RunPhase

def noted : RunPhase → Bool
  | .ended _ | .closing _ | .over _ | .returned _ => true
  | _ => false

theorem staffed_of_noted {p : RunPhase} (h : p.noted = true) : p.staffed = true := by
  cases p <;> first | rfl | cases h

theorem noted_of_result {p : RunPhase} {result : Except RunnerError Unit} (h : p.result? = some result) :
    p.noted = true := by
  cases p <;> first | rfl | cases h

end RunPhase

namespace World

variable {u v v' w w' : World} {a : Action} {as bs : List Action} {i j k : Nat} {x : Worker} {e : Effect} {r : RunCall}
  {accounts : List String} {p q : RunPhase} {c : WorkloadConfig}

/-! ### Steps of a claimed runner -/

inductive Shift (w : World) (k : Nat) (c : WorkloadConfig) (p : RunPhase) : Action → World → RunPhase → Prop where
  | quiet {a : Action} {w' : World} {q : RunPhase} (idle : a.worker? = none) (hq : Quiet w w')
      (window : w'.sink.window = w.sink.window) (begun : q.begun = p.begun) (staffed : q.staffed = p.staffed)
      (noted : q.noted = p.noted) : Shift w k c p a w' q
  | begins {pool : Option AccountPool} (early : Bool) (hp : p = .claimed pool) :
      Shift w k c p (.advanceRun k early) ({ w with
        sink := w.sink.setStart w.now, deadline := w.now + c.duration.nanos
        rate := c.rate, pool := pool }.setRun k (.started (w.now + c.duration.nanos)))
        (.started (w.now + c.duration.nanos))
  | staffs {d : Nat} (early : Bool) (hp : p = .starting d) :
      Shift w k c p (.advanceRun k early) ({ w with
        workers := Array.replicate c.concurrency (freshWorker c.scenario) }.setRun k (.waiting d)) (.waiting d)
  | ends {fs : List WorkerError} (early : Bool) (hp : p = .joined fs) :
      Shift w k c p (.advanceRun k early) ({ w with sink := w.sink.setEnd w.now }.setRun k (.ended fs)) (.ended fs)
  | works {a : Action} {i : Nat} {x : Worker} {e : Effect} (hx : w.workers[i]? = some x) (hw : WorkerStep w i x a e) :
      Shift w k c p a (w.affect i e) p

theorem Follows.shift (h : Follows p q) (ha : a.worker? = none) (hq : Quiet w w')
    (window : w'.sink.window = w.sink.window) : Shift w k c p a w' q := by
  rcases h with rfl | ⟨result, rfl, rfl⟩
  · exact .quiet ha hq window rfl rfl rfl
  · exact .quiet ha hq window rfl rfl rfl

theorem ClaimedBy.shift (c : w.ClaimedBy k r) (h : Happens w a w') :
    ∃ q, w'.ClaimedBy k { r with phase := q } ∧ Shift w k r.config r.phase a w' q := by
  obtain ⟨q, c'⟩ := c.step h
  have claimed : ∀ {p}, w'.runs[k]? = some { r with phase := p } → w'.ClaimedBy k { r with phase := p } := by
    intro p hp
    rw [← c'.call_eq hp]
    exact c'
  have phase : ∀ p, (w.setRun k p).runs[k]? = some { r with phase := p } := by
    intro p
    rw [runs_setRun, if_pos rfl, c.call]
    rfl
  cases ha : a.worker? with
  | some i =>
    obtain ⟨x, e, hx, hw, rfl⟩ := h.worker ha
    exact ⟨r.phase, ⟨c.call, c.standing.affect hx hw, c.others⟩, .works hx hw⟩
  | none =>
    rcases h.cases with outward | ⟨j, early, s, rfl, hs, hc⟩ | ⟨i, x, e, hx, hw, rfl⟩
    · obtain ⟨p, hp, follows⟩ := outward.old k r c.call
      exact ⟨p, claimed hp, follows.shift ha outward.toQuiet outward.window⟩
    · by_cases hj : j = k
      · subst hj
        obtain rfl := c.call_eq hs
        have standing := c.standing
        cases hc with
        | needsNoPool hp | findsPool hp | lacksPool hp | claims hp | comesLate hp =>
          rw [hp] at standing
          exact standing.elim
        | begins hp => exact ⟨_, claimed (phase _), .begins early hp⟩
        | staffs hp => exact ⟨_, claimed (phase _), .staffs early hp⟩
        | notesEnd hp => exact ⟨_, claimed (phase _), .ends early hp⟩
        | saysStop hp | saysNotice hp | saysEnd hp | closes hp =>
          refine ⟨_, claimed (phase _), .quiet ha quiet_move_setRun rfl ?_ ?_ ?_⟩ <;> rw [hp] <;> rfl
        | leavesRange hp | seesStop hp | seesNoStop hp | joinsFirst hp | notices hp | joins hp | returns hp =>
          refine ⟨_, claimed (phase _), .quiet ha quiet_setRun rfl ?_ ?_ ?_⟩ <;> rw [hp] <;> rfl
      · rcases outside_step (c.others j s hj hs) hc with ⟨p, rfl, _⟩ | ⟨hn, _⟩
        · have same : (w.setRun j p).runs[k]? = some r := by
            rw [runs_setRun, if_neg hj]
            exact c.call
          exact ⟨r.phase, claimed same, .quiet ha quiet_setRun rfl rfl rfl rfl⟩
        · exact (c.standing.started hn).elim
    · rw [hw.worker] at ha
      cases ha

/-- What holds of a run once it has claimed the runner, and after each step from then on. -/
theorem claim_induction {P : List Action → World → RunPhase → Prop} (h : (initial accounts).run as = some w)
    (c : w.ClaimedBy k r)
    (claimed : ∀ bs v pool, (initial accounts).run bs = some v → v.ClaimedBy k { r with phase := .claimed pool } →
      P bs v (.claimed pool))
    (shift : ∀ bs v a v' p q, (initial accounts).run bs = some v → Happens v a v' →
      v.ClaimedBy k { r with phase := p } → Shift v k r.config p a v' q → P bs v p → P (bs ++ [a]) v' q) :
    P as w r.phase := by
  refine run_induction (P := fun bs v => ∀ p, v.ClaimedBy k { r with phase := p } → P bs v p) ?_ ?_ h r.phase c
  · intro p c
    exact (c.standing.started rfl).elim
  · intro bs v a v' hb ih hs q c'
    rcases orderly_of_run hb with unclaimed | ⟨j, ⟨config, monitored, p⟩, d⟩
    · obtain ⟨pool, hp⟩ := unclaimed.claimed hs c'
      obtain rfl : q = .claimed pool := hp
      exact claimed (bs ++ [a]) v' pool (run_concat hb (step_of_happens hs)) c'
    · obtain ⟨q', d', step⟩ := d.shift hs
      obtain rfl := d'.unique c'
      obtain ⟨rfl, rfl, rfl⟩ : config = r.config ∧ monitored = r.monitored ∧ q' = q := by
        simpa using d'.call_eq c'.call
      exact shift bs v a v' p q' hb hs d step (ih p d)

/-! ### One worker -/

structure Apart (i : Nat) (a : Action) (w w' : World) : Prop where
  idle : a.worker? ≠ some i
  worker : w'.workers[i]? = w.workers[i]?
  own : own i w'.log = own i w.log
  grows : ∃ es, w'.log = es ++ w.log
  deadline : w'.deadline = w.deadline
  now : w.now ≤ w'.now

theorem apart_quiet (ha : a.worker? = none) (hq : Quiet w w') : Apart i a w w' :=
  ⟨by simp [ha], by rw [hq.workers], by rw [hq.log], ⟨[], hq.log⟩, hq.deadline, hq.now⟩

theorem apart_affect (hx : w.workers[j]? = some x) (hw : WorkerStep w j x a e) (hj : j ≠ i) :
    Apart i a w (w.affect j e) :=
  ⟨by simp [hw.worker, hj], by rw [workers_affect hx, if_neg hj], own_append_other hw.entries_own hj, ⟨_, rfl⟩, rfl,
    Nat.le_refl _⟩

/-- What holds of a worker as soon as it is there, whatever others do, and after each step of its own. -/
theorem worker_induction {P : List Action → World → Worker → Prop} (h : (initial accounts).run as = some w)
    (c : w.ClaimedBy k r) (hx : w.workers[i]? = some x)
    (starts : ∀ bs v early d, (initial accounts).run bs = some v → v.ClaimedBy k { r with phase := .starting d } →
      i < r.config.concurrency → P (bs ++ [.advanceRun k early]) ({ v with
        workers := Array.replicate r.config.concurrency (freshWorker r.config.scenario) }.setRun k (.waiting d))
        (freshWorker r.config.scenario))
    (waits : ∀ bs v a v' x, (initial accounts).run bs = some v → Happens v a v' → Apart i a v v' →
      v.workers[i]? = some x → x.serves r.config.scenario = true → P bs v x → P (bs ++ [a]) v' x)
    (goes : ∀ bs v a x e, (initial accounts).run bs = some v → v.workers[i]? = some x →
      x.serves r.config.scenario = true → WorkerStep v i x a e → P bs v x → P (bs ++ [a]) (v.affect i e) e.worker) :
    P as w x := by
  refine claim_induction (P := fun bs v _ => ∀ x, v.workers[i]? = some x → P bs v x) h c ?_ ?_ x hx
  · intro bs v pool _ c x hx
    exact (c.standing.2.1.vacant hx).elim
  · intro bs v a v' p q hb hs c step ih x hx
    have serves := fun x (hx : v.workers[i]? = some x) => (c.standing.staffed hx).1.serve i x hx
    cases step with
    | quiet ha hq window begun staffed noted =>
      have before : v.workers[i]? = some x := by rw [← hq.workers, hx]
      exact waits bs v a v' x hb hs (apart_quiet ha hq) before (serves x before) (ih x before)
    | begins early hp =>
      subst hp
      exact (c.standing.2.1.vacant hx).elim
    | staffs early hp =>
      subst hp
      change (Array.replicate r.config.concurrency (freshWorker r.config.scenario))[i]? = some x at hx
      rw [Array.getElem?_replicate] at hx
      split at hx
      · rename_i inside
        cases hx
        exact starts bs v early _ hb c inside
      · cases hx
    | ends early hp =>
      refine waits bs v _ _ x hb hs (apart_quiet rfl ?_) hx (serves x hx) (ih x hx)
      exact ⟨rfl, rfl, rfl, rfl, rfl, rfl, rfl, rfl, rfl, Nat.le_refl _, id⟩
    | @works _ j y e hy hw =>
      by_cases hj : j = i
      · subst hj
        rw [workers_affect hy, if_pos rfl] at hx
        cases hx
        exact goes bs v a y e hb hy (serves y hy) hw (ih y hy)
      · have apart : Apart i a v (v.affect j e) := apart_affect hy hw hj
        have before : v.workers[i]? = some x := by rw [← apart.worker, hx]
        exact waits bs v a _ x hb hs apart before (serves x before) (ih x before)

end World

end LedgerLoad.Load
