import LedgerLoad.Proofs.RunnerProgress

/-!
How long a stream run goes on once its deadline is reached or a stop is requested.

Timers are exact and nobody is kept waiting for a processor: time passes only while nothing is to be done at once, and
never beyond a deadline that is ahead. Under such a schedule what keeps a worker from its end is one thing only, a
subscription that the target has yet to answer, and what keeps the run from its end is such a worker.
-/

set_option autoImplicit false

namespace LedgerLoad.Load

def Action.passes : Action → Bool
  | .pass _ => true
  | _ => false

namespace World

variable {u v v' w w' x z : World} {a : Action} {as bs cs ds : List Action} {i j k n : Nat} {y : Worker} {e : Effect}
  {r s : RunCall} {accounts : List String}

/-- What is to be done at once if it can be done. A sleeping worker is woken by the stop and by its timer. -/
def Pressing (w : World) : Action → Prop
  | .stopMoves | .advanceRun _ _ | .work _ | .call _ _ | .subscribe _ | .look _ _ => True
  | .wake _ => w.Overdue
  | _ => False

def Still (w : World) : Prop := ∀ a w', w.Pressing a → w.step a ≠ some w'

/-- Time passes only while there is nothing to be done at once, and not beyond a deadline that is ahead. -/
def Prompt (w : World) (as : List Action) : Prop :=
  ∀ v n v', w.Takes as v (.pass n) v' → v.Still ∧ (v.now < v.deadline → v.now + n ≤ v.deadline)

def Visits (w : World) (as : List Action) (v : World) : Prop := ∃ bs cs, as = bs ++ cs ∧ w.run bs = some v

/-! ### Schedules -/

theorem Visits.append_left (hv : w.run bs = some v) (h : v.Visits cs x) : w.Visits (bs ++ (cs ++ ds)) x := by
  obtain ⟨cs', cs'', rfl, hx⟩ := h
  exact ⟨bs ++ cs', cs'' ++ ds, by simp, run_append_eq_some.2 ⟨v, hv, hx⟩⟩

theorem Prompt.within (h : w.Prompt (bs ++ (cs ++ ds))) (hv : w.run bs = some v) : v.Prompt cs := by
  rintro x n x' ⟨cs', cs'', rfl, hx, hs⟩
  exact h x n x' ⟨bs ++ cs', cs'' ++ ds, by simp, run_append_eq_some.2 ⟨v, hv, hx⟩, hs⟩

theorem now_step (h : Happens w a w') (ha : ∀ n, a ≠ .pass n) : w'.now = w.now := by
  rcases h with n | _ | _ | _ | _ | _ | ⟨k, early, hr, hc⟩ | _
  · exact (ha n rfl).elim
  · rfl
  · rfl
  · rfl
  · rfl
  · rfl
  · obtain ⟨q, _, hnow, _⟩ := hc.onward
    exact hnow
  · rfl

theorem now_le_step (h : Happens w a w') : w.now ≤ w'.now := by
  cases a with
  | pass n =>
    cases h with
    | passes => exact Nat.le_add_right _ _
    | worked hx hw => cases hw.worker
  | _ => exact Nat.le_of_eq (now_step h (by simp)).symm

theorem now_le_run (h : w.run as = some w') : w.now ≤ w'.now :=
  run_preserves (P := fun v => w.now ≤ v.now) (fun _ _ _ hv hs => Nat.le_trans hv (now_le_step hs)) (Nat.le_refl _) h

theorem Visits.after (h : w.Visits (bs ++ cs) x) (hv : w.run bs = some v) (hx : v.now < x.now) :
    ∃ cs' ds, cs = cs' ++ ds ∧ v.run cs' = some x := by
  obtain ⟨bs', ds, he, hrun⟩ := h
  rcases List.append_eq_append_iff.1 he with ⟨es, rfl, rfl⟩ | ⟨es, rfl, rfl⟩
  · obtain ⟨y, hy, hes⟩ := run_append_eq_some.1 hrun
    rw [hv] at hy
    cases hy
    exact ⟨es, ds, rfl, hes⟩
  · obtain ⟨y, hy, hes⟩ := run_append_eq_some.1 hv
    rw [hrun] at hy
    cases hy
    have back := now_le_run hes
    omega

/-! ### A staffed run -/

def Manned (w : World) (k : Nat) (r : RunCall) : Prop :=
  ∃ q, w.ClaimedBy k { r with phase := q } ∧ q.staffed = true

theorem Manned.cases (m : w.Manned k r) (h : Happens w a w') :
    Quiet w w' ∨ ∃ i x e, w.workers[i]? = some x ∧ WorkerStep w i x a e ∧ w' = w.affect i e := by
  obtain ⟨q, c, hq⟩ := m
  rcases Orderly.cases (.inr ⟨k, _, c⟩) h with ⟨_, quiet | sets⟩ | ⟨i, x, e, _, hx, hw, he⟩
  · exact .inl quiet
  · obtain ⟨j, s, d, hp⟩ := sets.call
    have hj := c.unique d
    subst hj
    obtain rfl := d.call_eq c.call
    rcases hp with ⟨pool, rfl⟩ | ⟨t, rfl⟩ <;> cases hq
  · exact .inr ⟨i, x, e, hx, hw, he⟩

theorem Manned.step (m : w.Manned k r) (h : Happens w a w') : w'.Manned k r := by
  obtain ⟨q, c, hq⟩ := m
  obtain ⟨p, c'⟩ := c.step h
  obtain ⟨p', hp', ho⟩ := h.phase c.call
  have e := Option.some.inj (c'.call.symm.trans hp')
  refine ⟨p', ?_, ?_⟩
  · rw [e] at c'
    exact c'
  · rcases ho with rfl | ho
    · exact hq
    · exact ho.staffed hq

theorem Manned.run (m : w.Manned k r) (h : w.run as = some w') : w'.Manned k r :=
  run_preserves (P := fun v => v.Manned k r) (fun _ _ _ hv hs => hv.step hs) m h

theorem Manned.deadline (m : w.Manned k r) (h : Happens w a w') : w'.deadline = w.deadline := by
  rcases m.cases h with quiet | ⟨i, x, e, _, _, rfl⟩
  · exact quiet.deadline
  · rfl

theorem Manned.overdue (m : w.Manned k r) (h : Happens w a w') (hd : w.Overdue) : w'.Overdue := by
  rcases hd with hs | hd
  · refine .inl ?_
    rcases m.cases h with quiet | ⟨i, x, e, _, _, rfl⟩
    · exact quiet.stopped hs
    · exact hs
  · refine .inr ?_
    rw [m.deadline h]
    exact Nat.le_trans hd (now_le_step h)

theorem Manned.serves (m : w.Manned k r) (hy : w.workers[i]? = some y) : y.serves r.config.scenario = true := by
  obtain ⟨q, c, _⟩ := m
  exact (c.standing.staffed hy).1.serve i y hy

/-- When nothing is to be done at once, a streaming worker that is late waits for its subscription. -/
theorem Manned.still_worker (m : w.Manned k r) (hb : r.config.scenario = .stream) (hs : w.Still) (hd : w.Overdue)
    (hy : w.workers[i]? = some y) (hl : y.terminated = false) : y = .stream .subscribing := by
  obtain ⟨q, c, _⟩ := id m
  have serves := m.serves hy
  rw [hb] at serves
  rcases worker_progress (.inr ⟨k, _, c⟩) hy hl with awaits | ⟨a, ha, w', hstep⟩
  · cases y with
    | balance p => cases serves
    | stream p => cases p <;> first | rfl | cases awaits
    | recordingBalance s p | recordingStream s p | finished why | faulted fault => cases awaits
  · have pressing : w.Pressing a := by
      simp only [ownSteps, List.mem_cons, List.not_mem_nil, or_false] at ha
      rcases ha with rfl | rfl | rfl | rfl | rfl
      · trivial
      · trivial
      · trivial
      · trivial
      · exact hd
    exact (hs a w' pressing hstep).elim

/-- When nothing is to be done at once, a run that is late waits for such a worker. -/
theorem Manned.still_run (m : w.Manned k r) (hb : r.config.scenario = .stream) (hs : w.Still) (hd : w.Overdue)
    (hr : w.runs[k]? = some s) (hn : s.phase.result? = none) : ∃ i : Nat, w.workers[i]? = some (.stream .subscribing) := by
  obtain ⟨q, c, hq⟩ := id m
  have e := Option.some.inj (hr.symm.trans c.call)
  subst e
  rcases standing_progress c.standing (.inl (RunPhase.begun_of_staffed hq)) hn with ⟨w', hc⟩ | ⟨ht, _⟩
  · exact (hs (.advanceRun k false) w' trivial (step_of_happens (.called k false hr hc))).elim
  · obtain ⟨i, y, hy, hl⟩ := exists_live ht
    rw [m.still_worker hb hs hd hy hl] at hy
    exact ⟨i, hy⟩

/-! ### Late worlds -/

/-- At the time of `x`, reached from `v` along the way, `z` shows whom the run waits for: its workers are gone or
subscribing, and those that are at work in `x` are among them. -/
structure Landed (k : Nat) (v : World) (as : List Action) (x z : World) : Prop where
  visited : v.Visits as z
  now : z.now = x.now
  workers : ∀ (i : Nat) (y : Worker), x.workers[i]? = some y → y.terminated = false →
    z.workers[i]? = some (.stream .subscribing)
  run : ∀ r, x.runs[k]? = some r → r.phase.result? = none → ∃ i : Nat, z.workers[i]? = some (.stream .subscribing)

theorem Landed.step {x' : World} (l : Landed k v as x z) (m : x.Manned k r) (h : Happens x a x') (ha : ∀ n, a ≠ .pass n) :
    Landed k v (as ++ [a]) x' z := by
  obtain ⟨bs, cs, rfl, hz⟩ := l.visited
  refine ⟨⟨bs, cs ++ [a], by simp, hz⟩, l.now.trans (now_step h ha).symm, ?_, ?_⟩
  · intro i y hy hl
    rcases m.cases h with quiet | ⟨j, y', e, hy', hw, rfl⟩
    · rw [quiet.workers] at hy
      exact l.workers i y hy hl
    · rw [workers_affect hy'] at hy
      split at hy
      · rename_i hj
        subst hj
        exact l.workers _ y' hy' hw.live
      · exact l.workers i y hy hl
  · intro s hs hn
    obtain ⟨q, c, _⟩ := m
    obtain ⟨q', hq', ho⟩ := h.phase c.call
    have e := Option.some.inj (hs.symm.trans hq')
    subst e
    refine l.run _ c.call ?_
    rcases ho with rfl | ho
    · exact hn
    · cases hres : ({ r with phase := q } : RunCall).phase.result? with
      | none => rfl
      | some result =>
        have kept := ho.result (by rw [hres]; rfl)
        rw [hn] at kept
        cases kept

theorem landed_of_prompt (m : v.Manned k r) (hb : r.config.scenario = .stream) (hd : v.Overdue) (hp : v.Prompt as)
    (h : v.run as = some x) : x.now = v.now ∨ ∃ z, Landed k v as x z := by
  have main := run_induction
    (P := fun bs x => v.Prompt bs → x.Overdue ∧ (x.now = v.now ∨ ∃ z, Landed k v bs x z)) ?_ ?_ h hp
  · exact main.2
  · exact fun _ => ⟨hd, .inl rfl⟩
  · intro bs x a x' hx ih hstep hprompt
    have manned := m.run hx
    have prompt : v.Prompt bs := fun y n y' ht => hprompt y n y' ((takes_concat hx (step_of_happens hstep)).2 (.inl ht))
    obtain ⟨overdue, landed⟩ := ih prompt
    refine ⟨manned.overdue hstep overdue, ?_⟩
    by_cases ha : ∃ n, a = .pass n
    · obtain ⟨n, rfl⟩ := ha
      obtain ⟨still, _⟩ := hprompt x n x' ((takes_concat hx (step_of_happens hstep)).2 (.inr ⟨rfl, rfl, rfl⟩))
      refine .inr ⟨x', ⟨bs ++ [.pass n], [], by simp, run_concat hx (step_of_happens hstep)⟩, rfl, ?_, ?_⟩
      · cases hstep with
        | worked hy hw => cases hw.worker
        | passes =>
          intro i y hy hl
          rw [manned.still_worker hb still overdue hy hl] at hy
          exact hy
      · cases hstep with
        | worked hy hw => cases hw.worker
        | passes => exact fun s hs hn => manned.still_run hb still overdue hs hn
    · have other : ∀ n, a ≠ .pass n := fun n he => ha ⟨n, he⟩
      rcases landed with hnow | ⟨z, hz⟩
      · exact .inl ((now_step hstep other).trans hnow)
      · exact .inr ⟨z, hz.step manned hstep other⟩

/-- A run that is on time becomes late at an instant that is not beyond its deadline. -/
theorem first_overdue (m : u.Manned k r) (hu : u.now ≤ u.deadline) (hp : u.Prompt cs) (h : u.run cs = some w)
    (hd : w.Overdue) :
    ∃ bs ds v, cs = bs ++ ds ∧ u.run bs = some v ∧ v.Overdue ∧ v.now ≤ v.deadline ∧
      ∀ x, u.Visits cs x → x.Overdue → v.now ≤ x.now := by
  induction cs generalizing u with
  | nil =>
    cases h
    refine ⟨[], [], w, rfl, rfl, hd, hu, ?_⟩
    rintro x ⟨bs, ds, he, hx⟩ _
    exact now_le_run hx
  | cons a cs ih =>
    by_cases hov : u.Overdue
    · refine ⟨[], a :: cs, u, rfl, rfl, hov, hu, ?_⟩
      rintro x ⟨bs, ds, he, hx⟩ _
      exact now_le_run hx
    · obtain ⟨u', hstep, hrun⟩ := run_cons_eq_some.1 h
      have happens := happens_of_step hstep
      have ahead : u.now < u.deadline := by
        unfold Overdue at hov
        omega
      have prompt : u'.Prompt cs := by
        have whole : u.Prompt ([a] ++ (cs ++ [])) := by simpa using hp
        exact whole.within (run_cons_eq_some.2 ⟨u', hstep, rfl⟩)
      have ontime : u'.now ≤ u'.deadline := by
        rw [m.deadline happens]
        by_cases ha : ∃ n, a = .pass n
        · obtain ⟨n, rfl⟩ := ha
          cases hstep
          exact (hp u n _ ⟨[], cs, rfl, rfl, rfl⟩).2 ahead
        · rw [now_step happens fun n he => ha ⟨n, he⟩]
          exact hu
      obtain ⟨bs, ds, v, rfl, hv, hvd, hvn, least⟩ := ih (m.step happens) ontime prompt hrun
      refine ⟨a :: bs, ds, v, rfl, run_cons_eq_some.2 ⟨u', hstep, hv⟩, hvd, hvn, ?_⟩
      rintro x ⟨bs', ds', he, hx⟩ hxd
      cases bs' with
      | nil =>
        cases hx
        exact (hov hxd).elim
      | cons b bs' =>
        obtain ⟨rfl, hrest⟩ := List.cons.inj he
        obtain ⟨u'', hu'', hx⟩ := run_cons_eq_some.1 hx
        rw [hstep] at hu''
        cases hu''
        exact least x ⟨bs', ds', hrest, hx⟩ hxd

theorem WorkerStep.recorded_now {x : Worker} {sample : Sample} {t : Nat} (h : WorkerStep w i x a e)
    (he : .recorded j sample t ∈ e.entries) : j = i ∧ t = w.now := by
  rcases h with h | h <;> cases h <;> simp at he
  all_goals exact ⟨he.1, he.2.2⟩

theorem live_of_recorded (h : (initial accounts).run as = some w) {sample : Sample} {t : Nat}
    (he : .recorded i sample t ∈ w.log) :
    ∃ x y, (initial accounts).Visits as x ∧ x.now = t ∧ x.workers[i]? = some y ∧ y.terminated = false := by
  refine run_induction (P := fun bs v => ∀ j sample t, Entry.recorded j sample t ∈ v.log →
    ∃ x y, (initial accounts).Visits bs x ∧ x.now = t ∧ x.workers[j]? = some y ∧ y.terminated = false) ?_ ?_ h i sample t he
  · intro j sample t he
    cases he
  · intro bs v b v' hb ih hs j sample t he
    have kept : Entry.recorded j sample t ∈ v.log →
        ∃ x y, (initial accounts).Visits (bs ++ [b]) x ∧ x.now = t ∧ x.workers[j]? = some y ∧ y.terminated = false := by
      intro he
      obtain ⟨x, y, ⟨bs', ds, rfl, hx⟩, hnow, hy, hl⟩ := ih j sample t he
      exact ⟨x, y, ⟨bs', ds ++ [b], by simp, hx⟩, hnow, hy, hl⟩
    rcases (orderly_of_run hb).cases hs with ⟨_, quiet | sets⟩ | ⟨i, y, e, _, hy, hw, rfl⟩
    · rw [quiet.log] at he
      exact kept he
    · rw [sets.log] at he
      cases he
    · rcases List.mem_append.1 he with he | he
      · obtain ⟨rfl, rfl⟩ := hw.recorded_now he
        exact ⟨v, y, ⟨bs, [b], rfl, hb⟩, rfl, hy, hw.live⟩
      · exact kept he

/-! ### The law -/

/-- Worker `i` waits for an answer to its subscription at some time after the instant `t`. -/
def Pending (u : World) (as : List Action) (t i : Nat) : Prop :=
  ∃ x, u.Visits as x ∧ t < x.now ∧ x.workers[i]? = some (.stream .subscribing)

/-- What keeps a stream run from its end. The instant that counts is the first one at which the stop flag is set or the
deadline is reached. However much grace is given after it, a worker is still at work beyond the grace, or records a
sample there, exactly if its subscription is unanswered beyond the grace; and the run goes on exactly if there is such a
worker. -/
theorem late_iff_pending (h : (initial accounts).run as = some u) (hk : Claims accounts as k) (hr : u.runs[k]? = some r)
    (hb : r.config.scenario = .stream) (hs : r.phase.staffed = true) (hu : u.now ≤ u.deadline) (hp : u.Prompt cs)
    (hw : u.run cs = some w) (hd : w.Overdue) :
    ∃ v, u.Visits cs v ∧ v.Overdue ∧ v.now ≤ v.deadline ∧ (∀ x, u.Visits cs x → x.Overdue → v.now ≤ x.now) ∧
      ∀ grace : Nat,
        (∀ i : Nat, (∃ x y, u.Visits cs x ∧ v.now + grace < x.now ∧ x.workers[i]? = some y ∧ y.terminated = false) ↔
          Pending u cs (v.now + grace) i) ∧
        (∀ i sample t, .recorded i sample t ∈ w.log → v.now + grace < t → Pending u cs (v.now + grace) i) ∧
        ((∃ x s, u.Visits cs x ∧ v.now + grace < x.now ∧ x.runs[k]? = some s ∧ s.phase.result? = none) ↔
          ∃ i, Pending u cs (v.now + grace) i) := by
  have m : u.Manned k r := ⟨r.phase, claimedBy_of_claims h hk hr, hs⟩
  obtain ⟨bs, ds, v, rfl, hv, hvd, hvn, least⟩ := first_overdue m hu hp hw hd
  have landing : ∀ {x es fs}, ds = es ++ fs → v.run es = some x → v.now < x.now →
      ∃ z, u.Visits (bs ++ ds) z ∧ z.now = x.now ∧
        (∀ (i : Nat) (y : Worker), x.workers[i]? = some y → y.terminated = false →
          z.workers[i]? = some (.stream .subscribing)) ∧
        ∀ s, x.runs[k]? = some s → s.phase.result? = none → ∃ i : Nat, z.workers[i]? = some (.stream .subscribing) := by
    rintro x es fs rfl hx hlt
    rcases landed_of_prompt (m.run hv) hb hvd (hp.within hv) hx with hnow | ⟨z, hz⟩
    · omega
    · exact ⟨z, hz.visited.append_left hv, hz.now, hz.workers, hz.run⟩
  refine ⟨v, ⟨bs, ds, rfl, hv⟩, hvd, hvn, least, fun grace => ⟨fun i => ⟨?_, ?_⟩, ?_, ⟨?_, ?_⟩⟩⟩
  · rintro ⟨x, y, hx, hlt, hy, hl⟩
    obtain ⟨es, fs, he, hrun⟩ := hx.after hv (by omega)
    obtain ⟨z, hz, hnow, workers, _⟩ := landing he hrun (by omega)
    exact ⟨z, hz, by omega, workers i y hy hl⟩
  · rintro ⟨x, hx, hlt, hy⟩
    exact ⟨x, _, hx, hlt, hy, rfl⟩
  · intro i sample t he hlt
    obtain ⟨x, y, hx, rfl, hy, hl⟩ := live_of_recorded (run_append_eq_some.2 ⟨u, h, hw⟩) he
    rw [← List.append_assoc] at hx
    obtain ⟨es, fs, he, hrun⟩ := hx.after (run_append_eq_some.2 ⟨u, h, hv⟩) (by omega)
    obtain ⟨z, hz, hnow, workers, _⟩ := landing he hrun (by omega)
    exact ⟨z, hz, by omega, workers i y hy hl⟩
  · rintro ⟨x, s, hx, hlt, hs, hn⟩
    obtain ⟨es, fs, he, hrun⟩ := hx.after hv (by omega)
    obtain ⟨z, hz, hnow, _, run⟩ := landing he hrun (by omega)
    obtain ⟨i, hi⟩ := run s hs hn
    exact ⟨i, z, hz, by omega, hi⟩
  · rintro ⟨i, x, hx, hlt, hy⟩
    obtain ⟨es, fs, _, hrun⟩ := id hx
    obtain ⟨q, c, _⟩ := m.run hrun
    refine ⟨x, _, hx, hlt, c.call, ?_⟩
    cases hres : ({ r with phase := q } : RunCall).phase.result? with
    | none => rfl
    | some result =>
      have gone := (standing_stopped c.standing (standing_result c.standing hres).1).1
      have live := allTerminated_iff.1 gone i _ hy
      cases live

/-! ### A silent target -/

theorem prompt_nil : w.Prompt [] := fun _ _ _ ht => (not_takes_nil ht).elim

theorem prompt_cons (now : ∀ n, a = .pass n → w.Still ∧ (w.now < w.deadline → w.now + n ≤ w.deadline))
    (hstep : w.step a = some w') (later : w'.Prompt as) : w.Prompt (a :: as) := by
  rintro v n v' ⟨bs, cs, he, hv, hs⟩
  cases bs with
  | nil =>
    cases hv
    exact now n (List.cons.inj he).1
  | cons b bs =>
    obtain ⟨rfl, hrest⟩ := List.cons.inj he
    obtain ⟨x, hx, hv⟩ := run_cons_eq_some.1 hv
    rw [hstep] at hx
    cases hx
    exact later v n v' ⟨bs, cs, hrest, hv, hs⟩

theorem Prompt.append (hp : w.Prompt as) (h : w.run as = some v) (hq : v.Prompt bs) : w.Prompt (as ++ bs) := by
  rintro x n x' ⟨cs, ds, he, hx, hs⟩
  rcases List.append_eq_append_iff.1 he with ⟨es, rfl, rfl⟩ | ⟨es, rfl, hes⟩
  · obtain ⟨z, hz, hx⟩ := run_append_eq_some.1 hx
    rw [h] at hz
    cases hz
    exact hq x n x' ⟨es, ds, rfl, hx, hs⟩
  · cases es with
    | nil =>
      rw [List.append_nil, hx] at h
      cases h
      exact hq _ n x' ⟨[], ds, hes.symm, rfl, hs⟩
    | cons b es =>
      obtain ⟨rfl, _⟩ := List.cons.inj hes
      exact hp x n x' ⟨cs, es, rfl, hx, hs⟩

theorem prompt_of_instant (h : ∀ a ∈ as, a.passes = false) : w.Prompt as := by
  rintro v n v' ⟨bs, cs, rfl, _⟩
  have instant := h (.pass n) (List.mem_append_right _ List.mem_cons_self)
  cases instant

theorem eq_of_singleton {α : Type} {b c : α} (h : #[b][n]? = some c) : c = b := by
  rw [Array.getElem?_singleton] at h
  split at h <;> cases h
  rfl

theorem still_of_silence (hw : w.workers = #[y]) (hy : y.awaits = true) (hs : w.stopping = 0) (hr : w.runs = #[r])
    (hp : r.phase = .joining ∨ ∃ d, r.phase = .waiting d ∧ w.stopped = false ∧ w.now < d) : w.Still := by
  have live : w.allTerminated ≠ true := by
    intro ht
    have gone := allTerminated_iff.1 ht 0 y (by rw [hw]; rfl)
    cases y with
    | finished why | faulted fault => cases hy
    | _ => cases gone
  intro a w' hpress hstep
  cases happens_of_step hstep with
  | passes n | signalled | stopCalled | runCalled config monitored | attached k stats hk hp hm => exact hpress
  | stopMoves h => exact h hs
  | called k early hk hc =>
    rw [hr] at hk
    rw [eq_of_singleton hk] at hc
    cases hc with
    | joins _ ht | joinsFirst _ _ ht => exact live ht
    | notices hq _ hd =>
      rcases hp with hp | ⟨t, hp, hs, hlt⟩
      · rw [hp] at hq
        cases hq
      · rw [hp] at hq
        cases hq
        rcases hd with hd | hd
        · rw [hs] at hd
          cases hd
        · omega
    | needsNoPool hq | findsPool hq | lacksPool hq | claims hq | comesLate hq | begins hq | leavesRange hq | seesStop hq
    | seesNoStop hq | saysStop hq | staffs hq | saysNotice hq | notesEnd hq | saysEnd hq | closes hq | returns hq =>
      rcases hp with hp | ⟨t, hp, _⟩ <;> rw [hp] at hq <;> cases hq
  | worked hx h =>
    rw [hw] at hx
    rw [eq_of_singleton hx] at h
    rcases h with h | h <;> cases h <;> first | exact hpress | cases hy

def subscribing : List Action :=
  let config : WorkloadConfig := { scenario := .stream, concurrency := 1, duration := Span.ofMillis 100 }
  [.run config false, .advanceRun 0 false, .advanceRun 0 false, .advanceRun 0 false, .advanceRun 0 false,
    .advanceRun 0 false, .work 0, .work 0, .subscribe 0]

def silent (now : Nat) (state : Lifecycle) (phase : RunPhase) : World where
  accounts := []
  now := now
  state := state
  sink := { window := { start := some 0 } }
  deadline := 100000000
  workers := #[.stream .subscribing]
  runs := #[{
    config := { scenario := .stream, concurrency := 1, duration := Span.ofMillis 100 }
    monitored := false
    phase := phase }]
  log := [.subscribed 0 0 0]

def silence : List Action := [.pass 100000000, .advanceRun 0 false, .advanceRun 0 false, .pass 4900000000]

theorem late_with_silent_target :
    (initial []).run subscribing = some (silent 0 .running (.waiting 100000000)) ∧
    (silent 0 .running (.waiting 100000000)).Prompt silence ∧
    ∃ v x s, (silent 0 .running (.waiting 100000000)).Visits silence v ∧ v.Overdue ∧ v.now ≤ v.deadline ∧
      (silent 0 .running (.waiting 100000000)).Visits silence x ∧ v.now + 100000000 < x.now ∧
      x.runs[0]? = some s ∧ s.phase.result? = none := by
  have opened : (initial []).run subscribing = some (silent 0 .running (.waiting 100000000)) := rfl
  have notices : (silent 100000000 .running (.waiting 100000000)).step (.advanceRun 0 false) =
      some (silent 100000000 .running .noticed) := by
    have live : (silent 100000000 .running (.waiting 100000000)).allTerminated = false := by
      simp [allTerminated, silent, Worker.terminated]
    exact step_of_happens (.called 0 false rfl (.notices rfl (.inr live) (.inr (by decide))))
  have prompt : (silent 0 .running (.waiting 100000000)).Prompt silence := by
    refine prompt_cons ?_ rfl (prompt_cons (fun n he => nomatch he) notices (prompt_cons (fun n he => nomatch he) rfl
      (prompt_cons ?_ rfl prompt_nil)))
    · rintro n he
      cases he
      exact ⟨still_of_silence rfl rfl rfl rfl (.inr ⟨_, rfl, rfl, by decide⟩), fun _ => by decide⟩
    · rintro n he
      exact ⟨still_of_silence rfl rfl rfl rfl (.inl rfl), fun hlt => absurd hlt (by decide)⟩
  have finish : (silent 0 .running (.waiting 100000000)).run silence = some (silent 5000000000 .stopping .joining) :=
    run_cons_eq_some.2 ⟨_, rfl, run_cons_eq_some.2 ⟨_, notices, rfl⟩⟩
  have claimed : Claims [] subscribing 0 := by
    rcases claims_of_run opened with ⟨unclaimed, _⟩ | ⟨k, s, c, hk⟩
    · cases unclaimed.state
    · have hlt := (Array.getElem?_eq_some_iff.1 c.call).1
      exact (hk 0).2 (Nat.lt_one_iff.1 hlt).symm
  obtain ⟨v, hv, hd, hn, least, law⟩ :=
    late_iff_pending opened claimed rfl rfl rfl (by decide) prompt finish (.inr (by decide))
  have due : (silent 0 .running (.waiting 100000000)).Visits silence (silent 100000000 .running (.waiting 100000000)) :=
    ⟨[.pass 100000000], [.advanceRun 0 false, .advanceRun 0 false, .pass 4900000000], rfl, rfl⟩
  have soon : v.now ≤ 100000000 := least _ due (.inr (by decide))
  have pending : Pending (silent 0 .running (.waiting 100000000)) silence (v.now + 100000000) 0 := by
    refine ⟨silent 5000000000 .stopping .joining, ⟨silence, [], rfl, finish⟩, ?_, rfl⟩
    change v.now + 100000000 < 5000000000
    omega
  obtain ⟨x, s, hx, hlt, hs, hnone⟩ := (law 100000000).2.2.2 ⟨0, pending⟩
  exact ⟨opened, prompt, v, x, s, hv, hd, hn, hx, hlt, hs, hnone⟩

end World

end LedgerLoad.Load
