import LedgerLoad.Proofs.RunnerFaults
import LedgerLoad.Proofs.RunnerInduction
import LedgerLoad.Proofs.RunnerPunctuality

/-!
The window that a run measures is that of its workers.

It opens where the deadline is counted from, before any worker is there, and closes when all of them are gone. How much
later that is than the last of them went is a matter of scheduling: where nothing that can be done at once is put off, it
is no later.
-/

set_option autoImplicit false

namespace LedgerLoad.Load

def Entry.time : Entry → Nat
  | .called _ _ t | .answered _ _ _ t | .panicked _ t | .subscribed _ _ t | .refused _ _ t | .received _ _ t
  | .recorded _ _ t | .ended _ t => t

def Call.took (c : Call) : Nat :=
  match c.ending with
  | .pending => 0
  | .replied _ at_ | .panicked at_ => at_ - c.start

def longest : List Call → Nat
  | [] => 0
  | c :: cs => max c.took (longest cs)

namespace World

variable {u v v' w w' : World} {a : Action} {as bs : List Action} {i j k n : Nat} {x : Worker} {e : Effect} {r : RunCall}
  {accounts : List String} {p q : RunPhase} {c : WorkloadConfig} {cs : List Call} {es : List Entry}

/-! ### The ends of the window -/

theorem WorkerStep.entries_now (h : WorkerStep w i x a e) : ∀ entry ∈ e.entries, entry.time = w.now := by
  rcases h with h | h <;> cases h <;> simp [Entry.time]

theorem WorkerStep.ended_iff (h : WorkerStep w i x a e) :
    e.worker.terminated = true ↔ ∃ t, .ended i t ∈ e.entries := by
  rcases h with h | h <;> cases h <;> simp [Worker.terminated]

theorem Standing.gone (h : w.Standing c p) (hn : p.noted = true) : w.allTerminated = true ∧ w.Closed := by
  cases p with
  | ended fs | closing fs =>
    obtain ⟨_, _, _, gone, closed⟩ := h
    exact ⟨gone.1, closed⟩
  | «over» result | returned result =>
    obtain ⟨_, _, _, closed, fs, gone, _⟩ := h
    exact ⟨gone.1, closed⟩
  | _ => cases hn

theorem Standing.settled (h : w.Standing c p) (hn : p.noted = true) (hx : w.workers[i]? = some x)
    (hw : WorkerStep w i x a e) : False := by
  have ended := allTerminated_iff.1 (h.gone hn).1 i x hx
  rw [hw.live] at ended
  cases ended

/-- Everything in the record happened within the window, whose ends are no later than now. -/
structure Framed (accounts : List String) (as : List Action) (w : World) (k : Nat) (p : RunPhase) : Prop where
  past : ∀ entry ∈ w.log, entry.time ≤ w.now
  start : ∀ s, w.sink.window.start = some s → Reads accounts as k s ∧ s ≤ w.now ∧ ∀ entry ∈ w.log, s ≤ entry.time
  unended : p.noted = false → w.sink.window.finish = none
  finish : ∀ f, w.sink.window.finish = some f → f ≤ w.now ∧ ∀ entry ∈ w.log, entry.time ≤ f

theorem Framed.quiet (h : Framed accounts bs v k p) (hb : (initial accounts).run bs = some v)
    (ha : v.step a = some v') (hq : Quiet v v') (window : v'.sink.window = v.sink.window) (noted : q.noted = p.noted) :
    Framed accounts (bs ++ [a]) v' k q := by
  refine ⟨?_, ?_, ?_, ?_⟩
  · rw [hq.log]
    exact fun entry he => Nat.le_trans (h.past entry he) hq.now
  · rw [window, hq.log]
    intro s hs
    obtain ⟨reads, past, inside⟩ := h.start s hs
    exact ⟨reads_concat hb ha reads, Nat.le_trans past hq.now, inside⟩
  · rw [noted, window]
    exact h.unended
  · rw [window, hq.log]
    intro f hf
    obtain ⟨past, inside⟩ := h.finish f hf
    exact ⟨Nat.le_trans past hq.now, inside⟩

theorem Framed.works (h : Framed accounts bs v k p) (hb : (initial accounts).run bs = some v) (hs : v.Standing c p)
    (hx : v.workers[i]? = some x) (hw : WorkerStep v i x a e) : Framed accounts (bs ++ [a]) (v.affect i e) k p := by
  have taken : v.step a = some (v.affect i e) := step_of_happens (.worked hx hw)
  have entries := hw.entries_now
  refine ⟨fun entry he => ?_, fun s hs => ?_, fun hn => ?_, fun f hf => ?_⟩
  · rcases List.mem_append.1 he with he | he
    · exact Nat.le_of_eq (entries entry he)
    · exact h.past entry he
  · rw [window_affect] at hs
    obtain ⟨reads, past, inside⟩ := h.start s hs
    refine ⟨reads_concat hb taken reads, past, fun entry he => ?_⟩
    rcases List.mem_append.1 he with he | he
    · rw [entries entry he]
      exact past
    · exact inside entry he
  · rw [window_affect]
    exact h.unended hn
  · rw [window_affect] at hf
    cases hn : p.noted with
    | true => exact (hs.settled hn hx hw).elim
    | false =>
      rw [h.unended hn] at hf
      cases hf

theorem framed_of_run (h : (initial accounts).run as = some w) (c : w.ClaimedBy k r) :
    Framed accounts as w k r.phase := by
  refine claim_induction (P := fun bs v p => Framed accounts bs v k p) h c ?_ ?_
  · intro bs v pool hb c
    have window : v.sink.window = {} := window_of_run hb c rfl
    have log : v.log = [] := c.standing.2.1.log
    constructor <;> simp [window, log]
  · intro bs v a v' p q hb hs c step ih
    have taken := step_of_happens hs
    have started : ∀ s, v.sink.window.start = some s →
        Reads accounts (bs ++ [a]) k s ∧ s ≤ v.now ∧ ∀ entry ∈ v.log, s ≤ entry.time :=
      fun s hs => (ih.start s hs).imp_left (reads_concat hb taken)
    cases step with
    | quiet _ hq window _ _ noted => exact ih.quiet hb taken hq window noted
    | begins early hp =>
      subst hp
      have log : v.log = [] := c.standing.2.1.log
      refine ⟨ih.past, fun s hs => ?_, fun _ => ih.unended rfl, ih.finish⟩
      cases hs
      refine ⟨reads_last hb taken c.call rfl, Nat.le_refl _, fun entry he => ?_⟩
      change entry ∈ v.log at he
      rw [log] at he
      cases he
    | staffs early hp =>
      subst hp
      exact ⟨ih.past, started, fun _ => ih.unended rfl, ih.finish⟩
    | ends early hp =>
      refine ⟨ih.past, started, fun hn => (nomatch hn), fun f hf => ?_⟩
      cases hf
      exact ⟨Nat.le_refl _, ih.past⟩
    | works hx hw => exact ih.works hb c.standing hx hw

theorem gone_iff_ended (h : (initial accounts).run as = some w) (c : w.ClaimedBy k r) (hx : w.workers[i]? = some x) :
    x.terminated = true ↔ ∃ t, .ended i t ∈ own i w.log := by
  refine worker_induction (P := fun _ v x => x.terminated = true ↔ ∃ t, .ended i t ∈ own i v.log) h c hx ?_ ?_ ?_
  · intro bs v early d _ c _
    have log : v.log = [] := c.standing.2.1.log
    change _ ↔ ∃ t, .ended i t ∈ own i v.log
    rw [log]
    cases r.config.scenario <;> simp [freshWorker, Worker.terminated, own]
  · intro bs v a v' x _ _ apart _ _ ih
    rw [apart.own]
    exact ih
  · intro bs v a x e _ _ _ hw ih
    have entries : own i (v.affect i e).log = e.entries ++ own i v.log := own_append_own hw.entries_own
    have before : ¬ ∃ t, .ended i t ∈ own i v.log := by
      rw [← ih, hw.live]
      decide
    rw [hw.ended_iff, entries]
    constructor
    · rintro ⟨t, ht⟩
      exact ⟨t, List.mem_append_left _ ht⟩
    · rintro ⟨t, ht⟩
      rcases List.mem_append.1 ht with ht | ht
      · exact ⟨t, ht⟩
      · exact (before ⟨t, ht⟩).elim

/-! ### Nothing is put off -/

theorem Prompt.concat (hp : u.Prompt (bs ++ [a])) (hb : u.run bs = some v) (hs : Happens v a v') :
    u.Prompt bs ∧ (v.Still ∨ v'.now = v.now) := by
  have taken := step_of_happens hs
  refine ⟨fun x n x' ht => hp x n x' ((takes_concat hb taken).2 (.inl ht)), ?_⟩
  by_cases pass : ∃ n, a = .pass n
  · obtain ⟨n, rfl⟩ := pass
    exact .inl (hp v n v' ((takes_concat hb taken).2 (.inr ⟨rfl, rfl, rfl⟩))).1
  · exact .inr (now_step hs fun n hn => pass ⟨n, hn⟩)

/-- From the opening of the window to its end, time passes only while some worker is at work. -/
def Attended (u : World) (as : List Action) : Prop :=
  ∀ v n v', u.Takes as v (.pass n) v' → v.sink.window.start ≠ none → v.sink.window.finish = none → v.allTerminated = false

/-- When nothing is to be done at once, a run whose end is yet to be noted waits for its workers. -/
theorem ClaimedBy.still (c : w.ClaimedBy k r) (hs : w.Still) (hb : r.phase.begun = true) (hn : r.phase.noted = false) :
    w.allTerminated = false := by
  have unfinished : r.phase.result? = none := by
    refine Option.eq_none_iff_forall_ne_some.2 fun result hres => ?_
    rw [RunPhase.noted_of_result hres] at hn
    cases hn
  rcases standing_progress c.standing (.inl hb) unfinished with ⟨w', hc⟩ | ⟨live, _, _⟩
  · exact (hs (.advanceRun k false) w' trivial (step_of_happens (.called k false c.call hc))).elim
  · exact live

theorem attended_of_prompt (h : (initial accounts).run as = some w) (hp : (initial accounts).Prompt as) :
    (initial accounts).Attended as := by
  intro v n v' ht start finish
  obtain ⟨bs, cs, hv, _⟩ := ht.rest h
  rcases orderly_of_run hv with unclaimed | ⟨k, r, c⟩
  · rw [unclaimed.window] at start
    exact (start rfl).elim
  · refine c.still (hp v n v' ht).1 ?_ ?_
    · by_contra unbegun
      rw [window_of_run hv c (by simpa using unbegun)] at start
      exact start rfl
    · by_contra noted
      have closed := (c.standing.gone (by simpa using noted)).2.2
      rw [finish] at closed
      cases closed

theorem Standing.opened (h : w.Standing c p) (hb : p.begun = true) : w.Opened c := by
  cases p with
  | entered | checked pool | claimed pool | panicked => cases hb
  | noticed | joining => exact h.2.2
  | _ => exact h.2.2.1

theorem Standing.unstaffed (h : w.Standing c p) (hs : p.staffed = false) : w.Unstaffed := by
  cases p with
  | entered | checked pool => exact h.elim
  | claimed pool | panicked | started d | stoppedEarly d | starting d => exact h.2.1
  | _ => cases hs

/-- Workers are started at the instant at which the window opens, and its end is noted when the last of them is gone. -/
structure Immediate (w : World) (p : RunPhase) : Prop where
  starts : p.begun = true → p.staffed = false → w.now ≤ w.deadline
  ends : p.staffed = true → p.noted = false → w.allTerminated = true → ∃ i, .ended i w.now ∈ w.log
  ended : p.noted = true → ∃ i f, w.sink.window.finish = some f ∧ .ended i f ∈ w.log

theorem Immediate.quiet (h : v.Immediate p) (c : v.ClaimedBy k { r with phase := p }) (hq : Quiet v v')
    (window : v'.sink.window = v.sink.window) (begun : q.begun = p.begun) (staffed : q.staffed = p.staffed)
    (noted : q.noted = p.noted) (time : p.begun = true → p.noted = false → v.allTerminated = false ∨ v'.now = v.now) :
    v'.Immediate q := by
  have now : p.begun = true → p.noted = false → (p.staffed = true → v.allTerminated = true) → v'.now = v.now := by
    intro hb hn gone
    refine (time hb hn).resolve_left fun live => ?_
    obtain ⟨i, x, hx, _⟩ := exists_live live
    cases hs : p.staffed with
    | true =>
      rw [gone hs] at live
      cases live
    | false => exact (c.standing.unstaffed hs).vacant hx
  refine ⟨fun hb hs => ?_, fun hs hn gone => ?_, fun hn => ?_⟩
  · rw [begun] at hb
    rw [staffed] at hs
    have unnoted : p.noted = false := Bool.eq_false_iff.2 fun hn => by simp [RunPhase.staffed_of_noted hn] at hs
    rw [now hb unnoted (by simp [hs]), hq.deadline]
    exact h.starts hb hs
  · rw [staffed] at hs
    rw [noted] at hn
    rw [allTerminated, hq.workers] at gone
    rw [now (RunPhase.begun_of_staffed hs) hn fun _ => gone, hq.log]
    exact h.ends hs hn gone
  · rw [noted] at hn
    rw [window, hq.log]
    exact h.ended hn

theorem Immediate.works (hs : v.Standing c p) (hx : v.workers[i]? = some x) (hw : WorkerStep v i x a e) :
    (v.affect i e).Immediate p := by
  refine ⟨fun _ hn => ((hs.unstaffed hn).vacant hx).elim, fun _ _ gone => ?_, fun hn => (hs.settled hn hx hw).elim⟩
  have own : (v.affect i e).workers[i]? = some e.worker := by rw [workers_affect hx, if_pos rfl]
  obtain ⟨t, ht⟩ := hw.ended_iff.1 (allTerminated_iff.1 gone i _ own)
  have now : t = v.now := hw.entries_now _ ht
  subst now
  exact ⟨i, List.mem_append_left _ ht⟩

theorem live_of_fresh {s : Scenario} (hn : 0 < n) (hw : w.workers = Array.replicate n (freshWorker s)) :
    w.allTerminated ≠ true := by
  intro gone
  have first : w.workers[0]? = some (freshWorker s) := by rw [hw, Array.getElem?_replicate, if_pos hn]
  have terminated := allTerminated_iff.1 gone 0 _ first
  cases s <;> cases terminated

theorem immediate_of_attended (h : (initial accounts).run as = some w) (c : w.ClaimedBy k r)
    (hc : 0 < r.config.concurrency) (ha : (initial accounts).Attended as) : w.Immediate r.phase := by
  refine claim_induction (P := fun bs v p => (initial accounts).Attended bs → v.Immediate p) h c ?_ ?_ ha
  · intro bs v pool _ _ _
    constructor <;> simp [RunPhase.begun, RunPhase.staffed, RunPhase.noted]
  · intro bs v a v' p q hb hs c step ih ha
    have taken := step_of_happens hs
    have before : (initial accounts).Attended bs := fun x n x' ht => ha x n x' ((takes_concat hb taken).2 (.inl ht))
    cases step with
    | quiet _ hq window begun staffed noted =>
      refine (ih before).quiet c hq window begun staffed noted fun hbegun hn => ?_
      by_cases pass : ∃ n, a = .pass n
      · obtain ⟨n, rfl⟩ := pass
        obtain ⟨t, ht, _⟩ := (c.standing.opened hbegun).start
        refine .inl (ha v n v' ((takes_concat hb taken).2 (.inr ⟨rfl, rfl, rfl⟩)) (by rw [ht]; simp) ?_)
        exact (framed_of_run hb c).unended hn
      · exact .inr (now_step hs fun n hn => pass ⟨n, hn⟩)
    | begins early hp =>
      refine ⟨fun _ _ => Nat.le_add_right _ _, fun hs => ?_, fun hn => ?_⟩
      · cases hs
      · cases hn
    | staffs early hp =>
      refine ⟨fun _ hs => ?_, fun _ _ gone => (live_of_fresh hc rfl gone).elim, fun hn => ?_⟩
      · cases hs
      · cases hn
    | ends early hp =>
      subst hp
      obtain ⟨i, hi⟩ := (ih before).ends rfl rfl c.standing.2.2.2.1
      refine ⟨fun _ hs => ?_, fun _ hn => ?_, fun _ => ⟨i, v.now, rfl, hi⟩⟩
      · cases hs
      · cases hn
    | works hx hw => exact Immediate.works c.standing hx hw

theorem immediate_of_run (h : (initial accounts).run as = some w) (c : w.ClaimedBy k r) (hc : 0 < r.config.concurrency)
    (hp : (initial accounts).Prompt as) : w.Immediate r.phase :=
  immediate_of_attended h c hc (attended_of_prompt h hp)

/-! ### Calls in time -/

theorem took_le_longest {call : Call} (h : call ∈ cs) : call.took ≤ longest cs := by
  induction cs with
  | nil => cases h
  | cons d ds ih =>
    rcases List.mem_cons.1 h with rfl | h
    · exact Nat.le_max_left _ _
    · exact Nat.le_trans (ih h) (Nat.le_max_right _ _)

theorem took_le_close (i : Nat) (call : Call) (ending : Ending) : call.took ≤ (call.close i ending).took := by
  by_cases h : call.waits i = true
  · have pending : call.took = 0 := by simp [Call.took, (waits_iff.1 h).2]
    rw [pending]
    exact Nat.zero_le _
  · rw [close_other h]

theorem longest_le_close (cs : List Call) (ending : Ending) : longest cs ≤ longest (cs.map (Call.close i ending)) := by
  induction cs with
  | nil => exact Nat.le_refl _
  | cons call cs ih =>
    have first := took_le_close i call ending
    simp only [List.map_cons, longest]
    omega

theorem longest_le_append (new es : List Entry) : longest (calls es) ≤ longest (calls (new ++ es)) := by
  induction new with
  | nil => exact Nat.le_refl _
  | cons entry new ih =>
    cases entry with
    | called i account t => exact Nat.le_trans ih (Nat.le_max_right _ _)
    | answered i since reply t => exact Nat.le_trans ih (longest_le_close _ _)
    | panicked i t => exact Nat.le_trans ih (longest_le_close _ _)
    | _ => exact ih

theorem call_of_waiting {account : String} {since : Nat} (h : (initial accounts).run as = some w)
    (hx : w.workers[i]? = some (.balance (.calling account since))) :
    { worker := i, account := account, start := since } ∈ calls w.log := by
  have accounted : w.Accounted := by
    rcases (accounted_of_run h).2 with unclaimed | ⟨k, r, c, accounted⟩
    · exact (unclaimed.unstaffed.vacant hx).elim
    · refine accounted ?_
      have serves := (c.standing.staffed hx).1.serve i _ hx
      cases hs : r.config.scenario with
      | balance => rfl
      | stream =>
        rw [hs] at serves
        cases serves
  have waiting := accounted.waiting i
  rw [hx, Option.elim_some] at waiting
  have own : { worker := i, account := account, start := since } ∈ (calls w.log).filter (Call.waits i) := by
    rw [waiting]
    exact List.mem_singleton_self _
  exact (List.mem_filter.1 own).1

theorem took_le_longest_close {call : Call} (ending : Ending) (h : call ∈ cs) (hw : call.waits i = true) :
    ({ call with ending := ending } : Call).took ≤ longest (cs.map (Call.close i ending)) :=
  took_le_longest (List.mem_map.2 ⟨call, h, close_waiting hw⟩)

/-- A worker that queries balances is in time: it calls before the deadline, and goes on when the call has ended. -/
structure InTime (w : World) (x : Worker) : Prop where
  draws : x = .balance .drawing → w.now < w.deadline
  called : ∀ account since, x = .balance (.calling account since) → since < w.deadline
  goesOn : x.terminated = false → x.awaits = false → w.now ≤ w.deadline + longest (calls w.log)

theorem InTime.later (h : w.InTime x) (hd : w'.deadline = w.deadline)
    (grows : longest (calls w.log) ≤ longest (calls w'.log))
    (now : w'.now = w.now ∨ x.terminated = true ∨ x.awaits = true) : w'.InTime x := by
  have kept : x.terminated = false → x.awaits = false → w'.now = w.now := by
    intro hx ha
    simpa [hx, ha] using now
  refine ⟨fun hx => ?_, fun account since hx => ?_, fun hx ha => ?_⟩
  · rw [hd, kept (by rw [hx]; rfl) (by rw [hx]; rfl)]
    exact h.draws hx
  · rw [hd]
    exact h.called account since hx
  · have before := h.goesOn hx ha
    rw [hd, kept hx ha]
    omega

theorem BalanceStep.now_le (h : BalanceStep w i x a e) (hx : w.InTime x)
    (hc : ∀ account since, x = .balance (.calling account since) →
      { worker := i, account := account, start := since } ∈ Load.calls w.log) :
    w.now ≤ w.deadline + longest (Load.calls (e.entries ++ w.log)) := by
  have grows := longest_le_append e.entries w.log
  have idle : x.terminated = false → x.awaits = false →
      w.now ≤ w.deadline + longest (Load.calls (e.entries ++ w.log)) := by
    intro live unawaited
    have before := hx.goesOn live unawaited
    omega
  have awaiting : ∀ account since ending, x = .balance (.calling account since) →
      ({ worker := i, account := account, start := since, ending := ending } : Call).took = w.now - since →
      Load.calls (e.entries ++ w.log) = (Load.calls w.log).map (Call.close i ending) →
      w.now ≤ w.deadline + longest (Load.calls (e.entries ++ w.log)) := by
    intro account since ending hcalling took closes
    have since_lt := hx.called account since hcalling
    have waiting : ({ worker := i, account := account, start := since } : Call).waits i = true := waits_iff.2 ⟨rfl, rfl⟩
    have longer := took_le_longest_close ending (hc account since hcalling) waiting
    rw [took] at longer
    rw [closes]
    omega
  cases h with
  | answered account since reply => exact awaiting account since (.replied reply w.now) rfl rfl rfl
  | panics account since => exact awaiting account since (.panicked w.now) rfl rfl rfl
  | _ => exact idle rfl rfl

theorem BalanceStep.inTime (h : BalanceStep w i x a e) (hs : x.serves .balance = true) (hx : w.InTime x)
    (now : w.now ≤ w.deadline + longest (Load.calls (e.entries ++ w.log))) : (w.affect i e).InTime e.worker := by
  refine ⟨fun hd => ?_, fun account since hc => ?_, fun _ _ => now⟩
  · cases h with
    | passesClock before => exact before
    | records s p =>
      cases p with
      | start => cases hd
      | _ => cases hs
    | _ => cases hd
  · cases h with
    | calls n =>
      cases hc
      exact hx.draws rfl
    | records s p =>
      cases p with
      | start => cases hc
      | _ => cases hs
    | _ => cases hc

theorem Still.awaits (hs : w.Still) (o : w.Orderly) (hx : w.workers[i]? = some x) (hb : x.serves .balance = true) :
    x.terminated = true ∨ x.awaits = true := by
  cases hl : x.terminated with
  | true => exact .inl rfl
  | false =>
    refine .inr ((worker_progress o hx hl).resolve_right ?_)
    rintro ⟨a, ha, w', hstep⟩
    simp only [ownSteps, List.mem_cons, List.not_mem_nil, or_false] at ha
    rcases ha with rfl | rfl | rfl | rfl | rfl
    · exact hs (.work i) w' trivial hstep
    · exact hs (.call i 0) w' trivial hstep
    · exact hs (.subscribe i) w' trivial hstep
    · exact hs (.look i none) w' trivial hstep
    · obtain ⟨y, e, hy, hw, _⟩ := (happens_of_step hstep).worker rfl
      rw [hx] at hy
      cases hy
      cases hw.balance hb

/-- Where nothing is put off, no worker that queries balances ends later than a call that began before the deadline. -/
theorem inTime_of_run (h : (initial accounts).run as = some w) (c : w.ClaimedBy k r) (hb : r.config.scenario = .balance)
    (hp : (initial accounts).Prompt as) (hx : w.workers[i]? = some x) :
    w.InTime x ∧ ∀ t, .ended i t ∈ own i w.log → t ≤ w.deadline + longest (calls w.log) := by
  refine worker_induction (P := fun bs v x => (initial accounts).Prompt bs →
    v.InTime x ∧ ∀ t, .ended i t ∈ own i v.log → t ≤ v.deadline + longest (calls v.log)) h c hx ?_ ?_ ?_ hp
  · intro bs v early d hb' c inside onTime
    have happens : Happens v (.advanceRun k early) _ := .called k early c.call (.staffs rfl)
    have log : v.log = [] := c.standing.2.1.log
    have start : v.now ≤ v.deadline :=
      (immediate_of_run hb' c (Nat.zero_lt_of_lt inside) (onTime.concat hb' happens).1).starts rfl rfl
    rw [hb]
    refine ⟨⟨fun hd => (nomatch hd), fun account since hc => (nomatch hc), fun _ _ => ?_⟩, fun t ht => ?_⟩
    · exact Nat.le_trans start (Nat.le_add_right _ _)
    · change Entry.ended i t ∈ own i v.log at ht
      rw [log] at ht
      cases ht
  · intro bs v a v' x hb' hs apart hx serves ih onTime
    obtain ⟨prompt, time⟩ := onTime.concat hb' hs
    obtain ⟨inTime, ended⟩ := ih prompt
    obtain ⟨es, grows⟩ := apart.grows
    have longer : longest (calls v.log) ≤ longest (calls v'.log) := by
      rw [grows]
      exact longest_le_append es v.log
    rw [hb] at serves
    refine ⟨inTime.later apart.deadline longer ?_, fun t ht => ?_⟩
    · rcases time with still | now
      · exact .inr (still.awaits (orderly_of_run hb') hx serves)
      · exact .inl now
    · rw [apart.own] at ht
      have before := ended t ht
      rw [apart.deadline]
      omega
  · intro bs v a x e hb' hx serves hw ih onTime
    have happens : Happens v a (v.affect i e) := .worked hx hw
    obtain ⟨inTime, ended⟩ := ih (onTime.concat hb' happens).1
    rw [hb] at serves
    have step : BalanceStep v i x a e := hw.balance serves
    have now : v.now ≤ v.deadline + longest (calls (e.entries ++ v.log)) := by
      refine step.now_le inTime ?_
      rintro account since rfl
      exact call_of_waiting hb' hx
    refine ⟨step.inTime serves inTime now, fun t ht => ?_⟩
    have entries : own i (v.affect i e).log = e.entries ++ own i v.log := own_append_own hw.entries_own
    rw [entries] at ht
    change t ≤ v.deadline + longest (calls (e.entries ++ v.log))
    rcases List.mem_append.1 ht with ht | ht
    · have at_ : t = v.now := hw.entries_now _ ht
      rw [at_]
      exact now
    · have before := ended t ht
      have longer := longest_le_append e.entries v.log
      omega

/-! ### The law -/

theorem finish_of_balance (h : (initial accounts).run as = some w) (c : w.ClaimedBy k r)
    (hb : r.config.scenario = .balance) (hx : w.workers[i]? = some x) :
    ∀ why, x = .finished why → why = .elapsed ∨ why = .requestedCancellation := by
  refine worker_induction (P := fun _ _ x => ∀ why, x = .finished why → why = .elapsed ∨ why = .requestedCancellation)
    h c hx ?_ ?_ ?_
  · intro bs v early d _ _ _ why hf
    rw [hb] at hf
    cases hf
  · exact fun bs v a v' x _ _ _ _ _ ih => ih
  · intro bs v a x e _ _ serves hw _ why hf
    rw [hb] at serves
    cases hw.balance serves with
    | cancels =>
      cases hf
      exact .inr rfl
    | elapses =>
      cases hf
      exact .inl rfl
    | _ => cases hf

/-- A run that was not stopped and had no fault is as long as was asked for: each of its workers saw the deadline. -/
theorem deadline_le_finish {f : Nat} (h : (initial accounts).run as = some w) (c : w.ClaimedBy k r)
    (hb : r.config.scenario = .balance) (hc : 0 < r.config.concurrency) (hs : w.stopped = false)
    (hres : r.phase.result? = some (.ok ())) (hf : w.sink.window.finish = some f) : w.deadline ≤ f := by
  have size : 0 < w.workers.size := by
    rw [(standing_stopped c.standing (standing_result c.standing hres).1).2.2]
    exact hc
  have hx : w.workers[0]? = some w.workers[0] := Array.getElem?_eq_getElem size
  have reports : w.Reports (.ok ()) := c.standing.reports hres
  have gone := reports.gone 0 _ hx
  have clean := reports.ok_iff.1 rfl 0 _ hx
  have reasons := finish_of_balance h c hb hx
  have grounds := (fares_of_run h hx).finished
  revert gone clean reasons grounds
  cases w.workers[0] with
  | finished why =>
    intro _ _ reasons grounds
    have grounds := grounds why rfl
    rcases reasons why rfl with rfl | rfl
    · obtain ⟨t, ended, late⟩ := grounds
      exact Nat.le_trans late (((framed_of_run h c).finish f hf).2 _ ended)
    · have stopped : w.stopped = true := grounds
      rw [hs] at stopped
      cases stopped
  | faulted fault => exact fun _ clean => nomatch clean
  | _ => exact fun gone => nomatch gone

/-- The window of a run is that of its workers. It opens at the instant that the deadline is counted from, closes when all
workers are gone, and nothing is recorded outside. A balance run that ends well without a stop lasts as long as was asked
for, and where nothing is put off no longer than that and its longest call. Where nothing is put off, the window of any run
closes at the instant at which the last worker comes to its end, whatever ends them. -/
theorem window_of_workers (h : (initial accounts).run as = some w) (hk : Claims accounts as k)
    (hr : w.runs[k]? = some r) :
    (r.phase.begun = true → ∃ s, w.sink.window.start = some s ∧ Reads accounts as k s ∧
      w.deadline = s + r.config.duration.nanos ∧ ∀ entry ∈ w.log, s ≤ entry.time) ∧
    (r.phase.begun = false → w.sink.window = {} ∧ w.log = []) ∧
    (∀ f, w.sink.window.finish = some f → (∀ entry ∈ w.log, entry.time ≤ f) ∧
      ∀ (i : Nat) (x : Worker), w.workers[i]? = some x → x.terminated = true ∧ ∃ t ≤ f, .ended i t ∈ w.log) ∧
    w.sink.samples.toList = (recorded w.log).reverse ∧
    (∀ result, r.phase.result? = some result → 0 < r.config.concurrency → ∃ s f, w.sink.window = ⟨some s, some f⟩ ∧
      (r.config.scenario = .balance → result = .ok () → w.stopped = false → r.config.duration ≤ w.sink.duration) ∧
      ((initial accounts).Prompt as → r.config.scenario = .balance →
        w.sink.duration.nanos ≤ r.config.duration.nanos + longest (calls w.log)) ∧
      ((initial accounts).Prompt as → w.sink.duration = Span.between s f ∧ (∃ i, .ended i f ∈ w.log) ∧
        ∀ i t, .ended i t ∈ w.log → t ≤ f)) := by
  have c : w.ClaimedBy k r := claimedBy_of_claims h hk hr
  have framed := framed_of_run h c
  have starts : r.phase.begun = true → ∃ s, w.sink.window.start = some s ∧ Reads accounts as k s ∧
      w.deadline = s + r.config.duration.nanos ∧ ∀ entry ∈ w.log, s ≤ entry.time := by
    intro begun
    obtain ⟨s, hs, deadline⟩ := (c.standing.opened begun).start
    obtain ⟨reads, _, inside⟩ := framed.start s hs
    exact ⟨s, hs, reads, deadline, inside⟩
  refine ⟨starts, fun unbegun => ⟨window_of_run h c unbegun, ?_⟩, fun f hf => ⟨(framed.finish f hf).2, ?_⟩,
    (told_of_run h).samples, fun result hres hc => ?_⟩
  · have unstaffed : r.phase.staffed = false := Bool.eq_false_iff.2 fun hs => by
      simp [RunPhase.begun_of_staffed hs] at unbegun
    exact (c.standing.unstaffed unstaffed).log
  · have noted : r.phase.noted = true := by
      cases hn : r.phase.noted with
      | true => rfl
      | false =>
        rw [framed.unended hn] at hf
        cases hf
    intro i x hx
    have gone := allTerminated_iff.1 (c.standing.gone noted).1 i x hx
    obtain ⟨t, ht⟩ := (gone_iff_ended h c hx).1 gone
    have entry := (List.mem_filter.1 ht).1
    exact ⟨gone, t, (framed.finish f hf).2 _ entry, entry⟩
  · have noted := RunPhase.noted_of_result hres
    obtain ⟨s, hs, _, deadline, _⟩ := starts (RunPhase.begun_of_staffed (RunPhase.staffed_of_noted noted))
    obtain ⟨f, hf⟩ := Option.isSome_iff_exists.1 (c.standing.gone noted).2.2
    have window : w.sink.window = ⟨some s, some f⟩ := by rw [← hs, ← hf]
    have duration : w.sink.duration = Span.between s f := by rw [Sink.duration, Window.duration, window]
    have closes : (initial accounts).Prompt as → ∃ i, .ended i f ∈ w.log := by
      intro onTime
      obtain ⟨i, f', hf', ended⟩ := (immediate_of_run h c hc onTime).ended noted
      rw [hf] at hf'
      cases hf'
      exact ⟨i, ended⟩
    refine ⟨s, f, window, ?_, ?_, fun onTime => ⟨duration, closes onTime, fun i t ht => (framed.finish f hf).2 _ ht⟩⟩
    · rintro hb rfl unstopped
      have late : w.deadline ≤ f := deadline_le_finish h c hb hc unstopped hres hf
      have short := r.config.duration.nanos_lt
      change r.config.duration.nanos ≤ w.sink.duration.nanos
      rw [duration, Span.between, Span.ofNanos_nanos]
      omega
    · intro onTime hb
      obtain ⟨i, ended⟩ := closes onTime
      have inside : i < w.workers.size := (told_of_run h).owners _ ended
      have hx : w.workers[i]? = some w.workers[i] := Array.getElem?_eq_getElem inside
      have own : .ended i f ∈ own i w.log := List.mem_filter.2 ⟨ended, by simp [Entry.worker]⟩
      have early := (inTime_of_run h c hb onTime hx).2 f own
      rw [duration, Span.between, Span.ofNanos_nanos]
      omega

def asking : List Action :=
  let config : WorkloadConfig := { scenario := .balance, concurrency := 1, duration := Span.ofMillis 100 }
  .run config false :: List.replicate 5 (.advanceRun 0 false) ++ [.work 0, .work 0, .call 0 0]

def asked (now : Nat) (state : Lifecycle) (phase : RunPhase) : World where
  accounts := ["0.0.1"]
  now := now
  state := state
  sink := { window := { start := some 0 } }
  deadline := 100000000
  pool := some ⟨["0.0.1"]⟩
  workers := #[.balance (.calling "0.0.1" 0)]
  runs := #[{
    config := { scenario := .balance, concurrency := 1, duration := Span.ofMillis 100 }
    monitored := false
    phase := phase }]
  log := [.called 0 "0.0.1" 0]

def answering : List Action :=
  [.answer 0 (.ok ()), .work 0, .work 0, .work 0] ++ List.replicate 5 (.advanceRun 0 false)

def overtime : List Action :=
  asking ++ .pass 100000000 :: ([.advanceRun 0 false, .advanceRun 0 false] ++ .pass 20000000 :: answering)

theorem prompt_overtime : (initial ["0.0.1"]).Prompt overtime := by
  have opened : (initial ["0.0.1"]).run asking = some (asked 0 .running (.waiting 100000000)) := rfl
  have notices : (asked 100000000 .running (.waiting 100000000)).run [.advanceRun 0 false, .advanceRun 0 false] =
      some (asked 100000000 .stopping .joining) := by
    have live : (asked 100000000 .running (.waiting 100000000)).allTerminated = false := by
      simp [allTerminated, asked, Worker.terminated]
    have noticed : (asked 100000000 .running (.waiting 100000000)).step (.advanceRun 0 false) =
        some (asked 100000000 .running .noticed) :=
      step_of_happens (.called 0 false rfl (.notices rfl (.inr live) (.inr (by decide))))
    exact run_cons_eq_some.2 ⟨_, noticed, rfl⟩
  refine (prompt_of_instant (by decide)).append opened (prompt_cons ?_ rfl
    ((prompt_of_instant (by decide)).append notices (prompt_cons ?_ rfl (prompt_of_instant (by decide)))))
  · rintro n he
    cases he
    exact ⟨still_of_silence rfl rfl rfl rfl (.inr ⟨_, rfl, rfl, by decide⟩), fun _ => by decide⟩
  · rintro n he
    cases he
    exact ⟨still_of_silence rfl rfl rfl rfl (.inl rfl), fun hlt => absurd hlt (by decide)⟩

theorem window_of_overtime : ∃ w r, (initial ["0.0.1"]).run overtime = some w ∧ Claims ["0.0.1"] overtime 0 ∧
    w.runs[0]? = some r ∧ r.config.scenario = .balance ∧ r.phase.result? = some (.ok ()) ∧ w.stopped = false ∧
    (initial ["0.0.1"]).Prompt overtime ∧ longest (calls w.log) = 120000000 ∧
    r.config.duration ≤ w.sink.duration ∧ w.sink.duration.nanos ≤ r.config.duration.nanos + longest (calls w.log) ∧
    ∃ s f, w.sink.duration = Span.between s f ∧ (∃ i, .ended i f ∈ w.log) ∧ ∀ i t, .ended i t ∈ w.log → t ≤ f := by
  have facts : ((initial ["0.0.1"]).run overtime).map (fun w => (w.state, w.runs.size, w.stopped,
      longest (calls w.log))) = some (.stopped, 1, false, 120000000) := by decide +kernel
  have call : ((initial ["0.0.1"]).run overtime).map (fun w => (w.runs[0]?).map fun r => (r.config.scenario,
      r.config.concurrency, r.phase matches .returned (.ok ()))) = some (some (.balance, 1, true)) := by decide +kernel
  obtain ⟨w, h, hw⟩ := Option.map_eq_some_iff.1 facts
  rw [h] at call
  simp only [Option.map_some, Option.some.injEq, Prod.mk.injEq, Option.map_eq_some_iff] at hw call
  obtain ⟨state, alone, unstopped, took⟩ := hw
  obtain ⟨r, hr, hb, one, hp⟩ := call
  have hc : 0 < r.config.concurrency := by omega
  have hres : r.phase.result? = some (.ok ()) := by
    revert hp
    cases r.phase with
    | returned result => cases result <;> simp [RunPhase.result?]
    | _ => simp
  have hk : Claims ["0.0.1"] overtime 0 := claims_of_alone h (by rw [state]; decide) alone
  obtain ⟨_, _, _, _, law⟩ := window_of_workers h hk hr
  obtain ⟨s, f, _, long, short, closes⟩ := law _ hres hc
  exact ⟨w, r, h, hk, hr, hb, hres, unstopped, prompt_overtime, took, long hb rfl unstopped, short prompt_overtime hb,
    s, f, closes prompt_overtime⟩

end World

end LedgerLoad.Load
