import LedgerLoad.Proofs.RunnerSchedules

/-!
The life of a runner, whatever is called on it and in whatever order.

The invariant `Orderly` ties the state of the runner to the one run call that claimed it: how far that call has come
says what the state may be, whether workers are there and whether they are gone, and which markers are set. Every other
call stands outside and changes nothing but its own phase.
-/

set_option autoImplicit false

namespace LedgerLoad

def Lifecycle.next? : Lifecycle → Option Lifecycle
  | .notStarted => some .running
  | .running => some .stopping
  | .stopping => some .stopped
  | .stopped => none

def WorkloadConfig.poolOf (c : WorkloadConfig) (accounts : List String) : Option AccountPool :=
  match c.scenario with
  | .balance => some ⟨accounts⟩
  | .stream => none

def WorkloadConfig.Supplied (c : WorkloadConfig) (accounts : List String) : Prop :=
  c.scenario = .balance → accounts ≠ []

namespace Load

def RunPhase.result? : RunPhase → Option (Except RunnerError Unit)
  | .over result | .returned result => some result
  | _ => none

/-- Whether a worker does what workers of a scenario do: a sample is recorded between two units of work. A worker that
is gone could have done either. -/
def Worker.serves : Scenario → Worker → Bool
  | .balance, .balance _ | .balance, .recordingBalance _ .start => true
  | .stream, .stream _ | .stream, .recordingStream _ (.looking _) | .stream, .recordingStream _ (.done _) => true
  | _, .finished _ | _, .faulted _ => true
  | _, _ => false

namespace World

structure Unstaffed (w : World) : Prop where
  workers : w.workers = #[]
  log : w.log = []
  samples : w.sink.samples = #[]
  metrics : w.sink.metrics = {}
  unpoisoned : w.poisoned = false

structure Opened (w : World) (c : WorkloadConfig) : Prop where
  start : ∃ s, w.sink.window.start = some s ∧ w.deadline = s + c.duration.nanos
  inRange : w.deadline < clockLimit
  rate : w.rate = c.rate
  pool : w.pool = c.poolOf w.accounts
  supplied : c.Supplied w.accounts

structure Staffed (w : World) (c : WorkloadConfig) : Prop where
  size : w.workers.size = c.concurrency
  serve : ∀ (i : Nat) (x : Worker), w.workers[i]? = some x → x.serves c.scenario = true

def Busy (w : World) : Prop := w.state = .running ∨ w.state = .stopping

def Gone (w : World) (faults : List WorkerError) : Prop := w.allTerminated = true ∧ faults = w.faults

def Closed (w : World) : Prop := w.sink.window.start.isSome = true ∧ w.sink.window.finish.isSome = true

/-- How the world stands while the run call that claimed it is in a phase. -/
def Standing (w : World) (c : WorkloadConfig) : RunPhase → Prop
  | .entered | .checked _ => False
  | .claimed pool => w.Busy ∧ w.Unstaffed ∧ pool = c.poolOf w.accounts ∧ c.Supplied w.accounts
  | .panicked => w.Busy ∧ w.Unstaffed ∧ clockLimit ≤ w.now + c.duration.nanos
  | .started d | .stoppedEarly d | .starting d => w.Busy ∧ w.Unstaffed ∧ w.Opened c ∧ d = w.deadline
  | .waiting d => w.Busy ∧ w.Staffed c ∧ w.Opened c ∧ d = w.deadline
  | .noticed | .joining => w.Busy ∧ w.Staffed c ∧ w.Opened c
  | .joined faults => w.Busy ∧ w.Staffed c ∧ w.Opened c ∧ w.Gone faults
  | .ended faults => w.Busy ∧ w.Staffed c ∧ w.Opened c ∧ w.Gone faults ∧ w.Closed
  | .closing faults => w.state = .stopping ∧ w.Staffed c ∧ w.Opened c ∧ w.Gone faults ∧ w.Closed
  | .over result | .returned result =>
    w.state = .stopped ∧ w.Staffed c ∧ w.Opened c ∧ w.Closed ∧ ∃ faults, w.Gone faults ∧ result = resultOf faults

/-- How a run call stands that did not claim the runner. -/
def Outside (accounts : List String) (c : WorkloadConfig) : RunPhase → Prop
  | .entered => True
  | .checked pool => pool = c.poolOf accounts ∧ c.Supplied accounts
  | .over result | .returned result =>
    result = .error .noAccounts ∧ ¬ c.Supplied accounts ∨ result = .error .alreadyStarted ∧ c.Supplied accounts
  | _ => False

structure Unclaimed (w : World) : Prop where
  state : w.state = .notStarted
  unstaffed : w.Unstaffed
  window : w.sink.window = {}
  others : ∀ (k : Nat) (r : RunCall), w.runs[k]? = some r → Outside w.accounts r.config r.phase

structure ClaimedBy (w : World) (k : Nat) (r : RunCall) : Prop where
  call : w.runs[k]? = some r
  standing : w.Standing r.config r.phase
  others : ∀ (j : Nat) (s : RunCall), j ≠ k → w.runs[j]? = some s → Outside w.accounts s.config s.phase

def Orderly (w : World) : Prop := w.Unclaimed ∨ ∃ k r, w.ClaimedBy k r

variable {v v' w w' : World} {a : Action} {as : List Action} {i j k : Nat} {x : Worker} {e : Effect} {r : RunCall}
  {early : Bool} {c : WorkloadConfig} {p : RunPhase}

/-! ### What leaves the workers alone -/

/-- Nothing changed that workers read or write to, but that time may have passed and a stop may have been requested. -/
structure Quiet (w w' : World) : Prop where
  accounts : w'.accounts = w.accounts
  workers : w'.workers = w.workers
  log : w'.log = w.log
  samples : w'.sink.samples = w.sink.samples
  metrics : w'.sink.metrics = w.sink.metrics
  poisoned : w'.poisoned = w.poisoned
  pool : w'.pool = w.pool
  rate : w'.rate = w.rate
  deadline : w'.deadline = w.deadline
  now : w.now ≤ w'.now
  stopped : w.stopped = true → w'.stopped = true

theorem quiet_setRun : Quiet w (w.setRun k p) :=
  ⟨rfl, rfl, rfl, rfl, rfl, rfl, rfl, rfl, rfl, Nat.le_refl _, id⟩

theorem quiet_move_setRun {source target : Lifecycle} : Quiet w ((w.move source target).setRun k p) :=
  ⟨rfl, rfl, rfl, rfl, rfl, rfl, rfl, rfl, rfl, Nat.le_refl _, id⟩

theorem Unstaffed.congr (h : w.Unstaffed) (hq : Quiet w w') : w'.Unstaffed :=
  ⟨hq.workers.trans h.workers, hq.log.trans h.log, hq.samples.trans h.samples, hq.metrics.trans h.metrics,
    hq.poisoned.trans h.unpoisoned⟩

theorem Opened.congr (h : w.Opened c) (hq : Quiet w w') (hw : w'.sink.window.start = w.sink.window.start) :
    w'.Opened c := by
  obtain ⟨s, hs, hd⟩ := h.start
  refine ⟨⟨s, hw.trans hs, hq.deadline.trans hd⟩, ?_, hq.rate.trans h.rate, ?_, ?_⟩
  · rw [hq.deadline]
    exact h.inRange
  · rw [hq.pool, hq.accounts]
    exact h.pool
  · rw [hq.accounts]
    exact h.supplied

theorem Staffed.congr (h : w.Staffed c) (hq : Quiet w w') : w'.Staffed c :=
  ⟨by rw [hq.workers]; exact h.size, by rw [hq.workers]; exact h.serve⟩

theorem Gone.congr {faults : List WorkerError} (h : w.Gone faults) (hq : Quiet w w') : w'.Gone faults := by
  unfold Gone allTerminated World.faults
  rw [hq.workers]
  exact h

theorem Closed.congr (h : w.Closed) (hw : w'.sink.window = w.sink.window) : w'.Closed := by
  unfold Closed
  rw [hw]
  exact h

theorem Standing.congr (h : w.Standing c p) (hq : Quiet w w') (hw : w'.sink.window = w.sink.window)
    (hs : w'.state = w.state ∨ w.state = .running ∧ w'.state = .stopping) : w'.Standing c p := by
  have start := congrArg Window.start hw
  have busy : w.Busy → w'.Busy := by
    unfold Busy
    rcases hs with hs | ⟨_, hs⟩
    · rw [hs]
      exact id
    · exact fun _ => .inr hs
  have same : w.state ≠ .running → w'.state = w.state := fun hr => hs.resolve_right fun h => hr h.1
  cases p with
  | entered | checked pool => exact h
  | claimed pool =>
    refine ⟨busy h.1, h.2.1.congr hq, ?_⟩
    rw [hq.accounts]
    exact h.2.2
  | panicked => exact ⟨busy h.1, h.2.1.congr hq, Nat.le_trans h.2.2 (Nat.add_le_add_right hq.now _)⟩
  | started d | stoppedEarly d | starting d =>
    exact ⟨busy h.1, h.2.1.congr hq, h.2.2.1.congr hq start, h.2.2.2.trans hq.deadline.symm⟩
  | waiting d => exact ⟨busy h.1, h.2.1.congr hq, h.2.2.1.congr hq start, h.2.2.2.trans hq.deadline.symm⟩
  | noticed | joining => exact ⟨busy h.1, h.2.1.congr hq, h.2.2.congr hq start⟩
  | joined faults => exact ⟨busy h.1, h.2.1.congr hq, h.2.2.1.congr hq start, h.2.2.2.congr hq⟩
  | ended faults =>
    exact ⟨busy h.1, h.2.1.congr hq, h.2.2.1.congr hq start, h.2.2.2.1.congr hq, h.2.2.2.2.congr hw⟩
  | closing faults =>
    have hc : w'.state = .stopping := (same (by rw [show w.state = .stopping from h.1]; decide)).trans h.1
    exact ⟨hc, h.2.1.congr hq, h.2.2.1.congr hq start, h.2.2.2.1.congr hq, h.2.2.2.2.congr hw⟩
  | «over» result | returned result =>
    have hc : w'.state = .stopped := (same (by rw [show w.state = .stopped from h.1]; decide)).trans h.1
    obtain ⟨faults, hg, hr⟩ := h.2.2.2.2
    exact ⟨hc, h.2.1.congr hq, h.2.2.1.congr hq start, h.2.2.2.1.congr hw, faults, hg.congr hq, hr⟩

/-! ### Steps of workers -/

theorem WorkerStep.worker (h : WorkerStep w i x a e) : a.worker? = some i := by
  rcases h with h | h <;> cases h <;> rfl

theorem Happens.worker (h : Happens w a w') (ha : a.worker? = some i) :
    ∃ x e, w.workers[i]? = some x ∧ WorkerStep w i x a e ∧ w' = w.affect i e := by
  cases h with
  | worked hx hw =>
    rw [hw.worker] at ha
    cases ha
    exact ⟨_, _, hx, hw, rfl⟩
  | _ => cases ha

theorem WorkerStep.live (h : WorkerStep w i x a e) : x.terminated = false := by
  rcases h with h | h <;> cases h <;> rfl

theorem carried_of_terminated (h : x.terminated = true) : x.carried = none := by
  cases x with
  | finished why | faulted fault => rfl
  | balance p | stream p | recordingBalance s p | recordingStream s p => cases h

theorem BalanceStep.serves (h : BalanceStep w i x a e) (hs : x.serves .balance = true) :
    e.worker.serves .balance = true := by
  cases h <;> rfl

theorem StreamStep.serves (h : StreamStep w i x a e) (hs : x.serves .stream = true) : e.worker.serves .stream = true := by
  cases h <;> rfl

theorem WorkerStep.balance (h : WorkerStep w i x a e) (hs : x.serves .balance = true) : BalanceStep w i x a e := by
  rcases h with h | h
  · exact h
  · cases h <;> cases hs

theorem WorkerStep.stream (h : WorkerStep w i x a e) (hs : x.serves .stream = true) : StreamStep w i x a e := by
  rcases h with h | h
  · cases h <;> cases hs
  · exact h

theorem WorkerStep.serves {s : Scenario} (h : WorkerStep w i x a e) (hs : x.serves s = true) :
    e.worker.serves s = true := by
  cases s with
  | balance => exact (h.balance hs).serves hs
  | stream => exact (h.stream hs).serves hs

theorem workers_affect (hx : w.workers[i]? = some x) :
    (w.affect i e).workers[j]? = if i = j then some e.worker else w.workers[j]? := by
  have hi : i < w.workers.size := (Array.getElem?_eq_some_iff.1 hx).1
  change (w.workers.setIfInBounds i e.worker)[j]? = _
  rw [Array.getElem?_setIfInBounds]
  simp only [hi, ↓reduceIte]

theorem Staffed.affect (h : w.Staffed c) (hx : w.workers[i]? = some x) (hs : WorkerStep w i x a e) :
    (w.affect i e).Staffed c := by
  constructor
  · change (w.workers.setIfInBounds i e.worker).size = _
    rw [Array.size_setIfInBounds]
    exact h.size
  · intro j y hy
    rw [workers_affect hx] at hy
    split at hy
    · cases hy
      exact hs.serves (h.serve i x hx)
    · exact h.serve j y hy

theorem window_affect : (w.affect i e).sink.window = w.sink.window := by
  unfold affect
  cases e.sample <;> rfl

theorem samples_affect : (w.affect i e).sink.samples.toList = w.sink.samples.toList ++ e.sample.toList := by
  unfold affect
  cases e.sample <;> simp [Sink.add]

theorem Opened.affect (h : w.Opened c) : (w.affect i e).Opened c :=
  ⟨by rw [window_affect]; exact h.start, h.inRange, h.rate, h.pool, h.supplied⟩

theorem Unstaffed.no_worker (h : w.Unstaffed) : w.workers[i]? = none := by
  rw [h.workers]
  rfl

theorem Unstaffed.vacant (h : w.Unstaffed) (hx : w.workers[i]? = some x) : False := by
  rw [h.no_worker] at hx
  cases hx

theorem allTerminated_iff :
    w.allTerminated = true ↔ ∀ (i : Nat) (x : Worker), w.workers[i]? = some x → x.terminated = true := by
  unfold allTerminated
  rw [Array.all_eq_true]
  constructor
  · intro h i x hx
    obtain ⟨hi, rfl⟩ := Array.getElem?_eq_some_iff.1 hx
    exact h i hi
  · intro h i hi
    exact h i _ (Array.getElem?_eq_getElem hi)

theorem Gone.no_step {faults : List WorkerError} (h : w.Gone faults) (hx : w.workers[i]? = some x)
    (hs : WorkerStep w i x a e) : False := by
  have ht := allTerminated_iff.1 h.1 i x hx
  rw [hs.live] at ht
  cases ht

theorem Standing.affect (h : w.Standing c p) (hx : w.workers[i]? = some x) (hs : WorkerStep w i x a e) :
    (w.affect i e).Standing c p := by
  cases p with
  | entered | checked pool => exact h
  | claimed pool | started d | stoppedEarly d | starting d | panicked => exact (h.2.1.vacant hx).elim
  | waiting d => exact ⟨h.1, h.2.1.affect hx hs, h.2.2.1.affect, h.2.2.2⟩
  | noticed | joining => exact ⟨h.1, h.2.1.affect hx hs, h.2.2.affect⟩
  | joined faults => exact (h.2.2.2.no_step hx hs).elim
  | ended faults | closing faults => exact (h.2.2.2.1.no_step hx hs).elim
  | «over» result | returned result =>
    obtain ⟨faults, hg, _⟩ := h.2.2.2.2
    exact (hg.no_step hx hs).elim

/-! ### Steps of run calls -/

theorem runs_setRun :
    (w.setRun k p).runs[j]? = if k = j then (w.runs[j]?).map (fun r => { r with phase := p }) else w.runs[j]? := by
  change (w.runs.modify k _)[j]? = _
  rw [Array.getElem?_modify]

theorem Standing.started (h : w.Standing c p) : w.state ≠ .notStarted := by
  have busy : w.Busy → w.state ≠ .notStarted := by
    rintro (hs | hs) <;> simp [hs]
  cases p with
  | entered | checked pool => exact h.elim
  | claimed pool | panicked | started d | stoppedEarly d | starting d | waiting d | noticed | joining | joined faults
  | ended faults => exact busy h.1
  | closing faults => rw [show w.state = .stopping from h.1]; decide
  | «over» result | returned result => rw [show w.state = .stopped from h.1]; decide

theorem busy_move (h : w.Busy) : (w.move .running .stopping).state = .stopping := by
  rcases h with h | h <;> simp [move, Lifecycle.advance, h]

/-- A run call outside either stays there, with nothing changed but its phase, or claims the runner. -/
theorem outside_step (ho : Outside w.accounts r.config r.phase) (h : CallStep w k early r w') :
    (∃ q, w' = w.setRun k q ∧ Outside w.accounts r.config q) ∨
    (w.state = .notStarted ∧ r.config.Supplied w.accounts ∧
      w' = (w.move .notStarted .running).setRun k (.claimed (r.config.poolOf w.accounts))) := by
  cases h with
  | needsNoPool hp hs =>
    exact .inl ⟨_, rfl, by simp [WorkloadConfig.poolOf, hs], by simp [WorkloadConfig.Supplied, hs]⟩
  | findsPool hp hs ha =>
    exact .inl ⟨_, rfl, by simp [WorkloadConfig.poolOf, hs], fun _ => ha⟩
  | lacksPool hp hs ha =>
    exact .inl ⟨_, rfl, .inl ⟨rfl, fun h => h hs ha⟩⟩
  | claims hp hs =>
    rw [hp] at ho
    obtain ⟨rfl, hsup⟩ := ho
    exact .inr ⟨hs, hsup, rfl⟩
  | comesLate hp hs =>
    rw [hp] at ho
    exact .inl ⟨_, rfl, .inr ⟨rfl, ho.2⟩⟩
  | returns hp hm =>
    rw [hp] at ho
    exact .inl ⟨_, rfl, ho⟩
  | begins hp | leavesRange hp | seesStop hp | seesNoStop hp | saysStop hp | staffs hp | joinsFirst hp | notices hp
  | saysNotice hp | joins hp | notesEnd hp | saysEnd hp | closes hp =>
    rw [hp] at ho
    exact ho.elim

/-- The run call that claimed the runner goes on, and the world with it. -/
theorem standing_step (hs : w.Standing r.config r.phase) (h : CallStep w k early r w') :
    ∃ q, w'.runs = (w.setRun k q).runs ∧ w'.accounts = w.accounts ∧ w'.Standing r.config q := by
  have phase : ∀ {q}, w.Standing r.config q → (w.setRun k q).Standing r.config q :=
    fun hq => hq.congr quiet_setRun rfl (.inl rfl)
  cases h with
  | needsNoPool hp | findsPool hp | lacksPool hp | claims hp | comesLate hp =>
    rw [hp] at hs
    exact hs.elim
  | begins hp hd =>
    rw [hp] at hs
    obtain ⟨hb, hu, rfl, hsup⟩ := hs
    exact ⟨_, rfl, rfl, hb, ⟨hu.workers, hu.log, hu.samples, hu.metrics, hu.unpoisoned⟩,
      ⟨⟨_, rfl, rfl⟩, hd, rfl, rfl, hsup⟩, rfl⟩
  | leavesRange hp hd =>
    rw [hp] at hs
    exact ⟨_, rfl, rfl, phase ⟨hs.1, hs.2.1, hd⟩⟩
  | seesStop hp | seesNoStop hp =>
    rw [hp] at hs
    exact ⟨_, rfl, rfl, phase hs⟩
  | saysStop hp =>
    rw [hp] at hs
    obtain ⟨hb, hu, ho, hd⟩ := hs
    exact ⟨_, rfl, rfl, .inr (busy_move hb), hu.congr quiet_move_setRun, ho.congr quiet_move_setRun rfl, hd⟩
  | staffs hp =>
    rw [hp] at hs
    obtain ⟨hb, hu, ho, hd⟩ := hs
    refine ⟨_, rfl, rfl, hb, ⟨Array.size_replicate, ?_⟩, ⟨ho.start, ho.inRange, ho.rate, ho.pool, ho.supplied⟩, hd⟩
    intro i x hx
    change (Array.replicate r.config.concurrency (freshWorker r.config.scenario))[i]? = some x at hx
    rw [Array.getElem?_replicate] at hx
    split at hx
    · cases hx
      cases r.config.scenario <;> rfl
    · cases hx
  | joinsFirst hp he ht =>
    rw [hp] at hs
    exact ⟨_, rfl, rfl, phase ⟨hs.1, hs.2.1, hs.2.2.1, ht, rfl⟩⟩
  | notices hp he hd =>
    rw [hp] at hs
    exact ⟨_, rfl, rfl, phase ⟨hs.1, hs.2.1, hs.2.2.1⟩⟩
  | saysNotice hp =>
    rw [hp] at hs
    obtain ⟨hb, hst, ho⟩ := hs
    exact ⟨_, rfl, rfl, .inr (busy_move hb), hst.congr quiet_move_setRun, ho.congr quiet_move_setRun rfl⟩
  | joins hp ht =>
    rw [hp] at hs
    exact ⟨_, rfl, rfl, phase ⟨hs.1, hs.2.1, hs.2.2, ht, rfl⟩⟩
  | notesEnd hp =>
    rw [hp] at hs
    obtain ⟨hb, hst, ho, hg⟩ := hs
    obtain ⟨s, hstart, hd⟩ := ho.start
    exact ⟨_, rfl, rfl, hb, ⟨hst.size, hst.serve⟩, ⟨⟨s, hstart, hd⟩, ho.inRange, ho.rate, ho.pool, ho.supplied⟩, hg,
      Option.isSome_of_eq_some hstart, rfl⟩
  | saysEnd hp =>
    rw [hp] at hs
    obtain ⟨hb, hst, ho, hg, hc⟩ := hs
    exact ⟨_, rfl, rfl, busy_move hb, hst.congr quiet_move_setRun, ho.congr quiet_move_setRun rfl,
      hg.congr quiet_move_setRun, hc⟩
  | closes hp =>
    rw [hp] at hs
    obtain ⟨hstate, hst, ho, hg, hc⟩ := hs
    refine ⟨_, rfl, rfl, ?_, hst.congr quiet_move_setRun, ho.congr quiet_move_setRun rfl, hc, _,
      hg.congr quiet_move_setRun, rfl⟩
    change w.state.advance .stopping .stopped = .stopped
    rw [hstate]
    rfl
  | returns hp hm =>
    rw [hp] at hs
    exact ⟨_, rfl, rfl, phase (q := .returned _) hs⟩

/-! ### What comes from outside -/

theorem move_stopping (w : World) :
    (w.move .running .stopping).state = w.state ∨ w.state = .running ∧ (w.move .running .stopping).state = .stopping := by
  by_cases h : w.state = .running
  · exact .inr ⟨h, by simp [move, Lifecycle.advance, h]⟩
  · exact .inl (by simp [move, Lifecycle.advance, h])

def Follows (p q : RunPhase) : Prop := q = p ∨ ∃ result, p = .over result ∧ q = .returned result

theorem Follows.outside {accounts : List String} {q : RunPhase} (h : Follows p q) (ho : Outside accounts c p) :
    Outside accounts c q := by
  rcases h with rfl | ⟨result, rfl, rfl⟩ <;> exact ho

theorem Follows.standing {q : RunPhase} (h : Follows p q) (hs : w.Standing c p) : w.Standing c q := by
  rcases h with rfl | ⟨result, rfl, rfl⟩ <;> exact hs

structure Outward (w w' : World) : Prop extends Quiet w w' where
  window : w'.sink.window = w.sink.window
  state : w'.state = w.state ∨ w.state = .running ∧ w'.state = .stopping
  old : ∀ (k : Nat) (r : RunCall), w.runs[k]? = some r → ∃ q, w'.runs[k]? = some { r with phase := q } ∧ Follows r.phase q
  new : ∀ (k : Nat) (r : RunCall), w'.runs[k]? = some r → w.runs[k]? = none → r.phase = .entered

theorem outward_of_same_runs (hq : Quiet w w') (hw : w'.sink.window = w.sink.window)
    (hs : w'.state = w.state ∨ w.state = .running ∧ w'.state = .stopping) (hr : w'.runs = w.runs) : Outward w w' := by
  refine ⟨hq, hw, hs, fun k r hk => ⟨r.phase, by rw [hr]; exact hk, .inl rfl⟩, fun k r hk hn => ?_⟩
  rw [hr, hn] at hk
  cases hk

theorem Happens.cases (h : Happens w a w') :
    Outward w w' ∨
    (∃ k early r, a = .advanceRun k early ∧ w.runs[k]? = some r ∧ CallStep w k early r w') ∨
    (∃ i x e, w.workers[i]? = some x ∧ WorkerStep w i x a e ∧ w' = w.affect i e) := by
  cases h with
  | passes n =>
    exact .inl (outward_of_same_runs ⟨rfl, rfl, rfl, rfl, rfl, rfl, rfl, rfl, rfl, Nat.le_add_right _ _, id⟩ rfl
      (.inl rfl) rfl)
  | signalled | stopCalled =>
    exact .inl (outward_of_same_runs ⟨rfl, rfl, rfl, rfl, rfl, rfl, rfl, rfl, rfl, Nat.le_refl _, fun _ => rfl⟩ rfl
      (.inl rfl) rfl)
  | stopMoves _ =>
    exact .inl (outward_of_same_runs ⟨rfl, rfl, rfl, rfl, rfl, rfl, rfl, rfl, rfl, Nat.le_refl _, id⟩ rfl
      (move_stopping w) rfl)
  | runCalled config monitored =>
    refine .inl ⟨⟨rfl, rfl, rfl, rfl, rfl, rfl, rfl, rfl, rfl, Nat.le_refl _, id⟩, rfl, .inl rfl, ?_, ?_⟩
    · intro k r hk
      have hlt := (Array.getElem?_eq_some_iff.1 hk).1
      refine ⟨r.phase, ?_, .inl rfl⟩
      change (w.runs.push _)[k]? = _
      rw [Array.getElem?_push, if_neg (by omega)]
      exact hk
    · intro k r hk hn
      change (w.runs.push _)[k]? = _ at hk
      rw [Array.getElem?_push, hn] at hk
      split at hk
      · cases hk
        rfl
      · cases hk
  | @attached k stats r result hr hp hm =>
    refine .inl ⟨⟨rfl, rfl, rfl, rfl, rfl, rfl, rfl, rfl, rfl, Nat.le_refl _, id⟩, rfl, .inl rfl, ?_, ?_⟩
    · intro j s hj
      rw [runs_setRun]
      by_cases he : k = j
      · subst he
        rw [hr] at hj
        cases hj
        exact ⟨.returned result, by simp [hr], .inr ⟨result, hp, rfl⟩⟩
      · exact ⟨s.phase, by rw [if_neg he]; exact hj, .inl rfl⟩
    · intro j s hj hn
      rw [runs_setRun] at hj
      change (if k = j then (w.runs[j]?).map _ else w.runs[j]?) = some s at hj
      rw [hn] at hj
      split at hj <;> cases hj
  | called k early hr h => exact .inr (.inl ⟨k, early, _, rfl, hr, h⟩)
  | worked hx h => exact .inr (.inr ⟨_, _, _, hx, h, rfl⟩)

theorem Outward.outside (h : Outward w w') (ho : ∀ (s : RunCall), w.runs[k]? = some s → Outside w.accounts s.config s.phase)
    (hr : w'.runs[k]? = some r) : Outside w'.accounts r.config r.phase := by
  rw [h.accounts]
  cases hk : w.runs[k]? with
  | none =>
    rw [h.new k r hr hk]
    trivial
  | some s =>
    obtain ⟨q, hr', hf⟩ := h.old k s hk
    rw [hr] at hr'
    cases hr'
    exact hf.outside (ho s hk)

/-! ### The invariant along schedules -/

theorem unclaimed_initial (accounts : List String) : (initial accounts).Unclaimed :=
  ⟨rfl, ⟨rfl, rfl, rfl, rfl, rfl⟩, rfl, fun k r h => by simp [initial] at h⟩

theorem Unclaimed.step (u : w.Unclaimed) (h : Happens w a w') :
    w'.Unclaimed ∨ ∃ k early r, a = .advanceRun k early ∧ w'.ClaimedBy k r := by
  rcases h.cases with ho | ⟨k, early, r, rfl, hr, hc⟩ | ⟨i, x, e, hx, _, _⟩
  · refine .inl ⟨?_, u.unstaffed.congr ho.toQuiet, ho.window.trans u.window, fun k r hr => ho.outside (u.others k) hr⟩
    rcases ho.state with hs | ⟨hs, _⟩
    · exact hs.trans u.state
    · rw [u.state] at hs
      cases hs
  · rcases outside_step (u.others k r hr) hc with ⟨q, rfl, hq⟩ | ⟨_, hsup, rfl⟩
    · refine .inl ⟨u.state, u.unstaffed.congr quiet_setRun, u.window, fun j s hs => ?_⟩
      rw [runs_setRun] at hs
      split at hs
      · rename_i hj
        subst hj
        rw [hr] at hs
        cases hs
        exact hq
      · exact u.others j s hs
    · refine .inr ⟨k, early, { r with phase := .claimed (r.config.poolOf w.accounts) }, rfl, ?_, ?_, ?_⟩
      · rw [runs_setRun]
        simp [move, hr]
      · exact ⟨.inl (by simp [setRun, move, Lifecycle.advance, u.state]), u.unstaffed.congr quiet_move_setRun, rfl, hsup⟩
      · intro j s hj hs
        rw [runs_setRun, if_neg (Ne.symm hj)] at hs
        exact u.others j s hs
  · exact (u.unstaffed.vacant hx).elim

theorem ClaimedBy.call_eq {s : RunCall} (c : w.ClaimedBy k s) (hr : w.runs[k]? = some r) : s = r :=
  Option.some.inj (c.call.symm.trans hr)

theorem ClaimedBy.step (c : w.ClaimedBy k r) (h : Happens w a w') : ∃ q, w'.ClaimedBy k { r with phase := q } := by
  rcases h.cases with ho | ⟨j, early, s, rfl, hs, hc⟩ | ⟨i, x, e, hx, hw, rfl⟩
  · obtain ⟨q, hr, hf⟩ := ho.old k r c.call
    exact ⟨q, hr, (hf.standing c.standing).congr ho.toQuiet ho.window ho.state,
      fun j s hj hs => ho.outside (fun t ht => c.others j t hj ht) hs⟩
  · by_cases hj : j = k
    · subst hj
      obtain rfl := c.call_eq hs
      obtain ⟨q, hruns, hacc, hst⟩ := standing_step c.standing hc
      refine ⟨q, by rw [hruns, runs_setRun]; simp [hs], hst, fun i t hi ht => ?_⟩
      rw [hruns, runs_setRun, if_neg (Ne.symm hi)] at ht
      rw [hacc]
      exact c.others i t hi ht
    · rcases outside_step (c.others j s hj hs) hc with ⟨q, rfl, hq⟩ | ⟨hn, _⟩
      · refine ⟨r.phase, by rw [runs_setRun, if_neg hj]; exact c.call, c.standing.congr quiet_setRun rfl (.inl rfl), ?_⟩
        intro i t hi ht
        rw [runs_setRun] at ht
        split at ht
        · rename_i he
          subst he
          rw [hs] at ht
          cases ht
          exact hq
        · exact c.others i t hi ht
      · exact (c.standing.started hn).elim
  · exact ⟨r.phase, c.call, c.standing.affect hx hw, c.others⟩

theorem ClaimedBy.run (c : w.ClaimedBy k r) (h : w.run as = some w') : ∃ q, w'.ClaimedBy k { r with phase := q } := by
  refine run_preserves (P := fun v => ∃ q, v.ClaimedBy k { r with phase := q }) ?_ ⟨r.phase, c⟩ h
  intro v b v' ⟨q, hv⟩ hs
  exact hv.step hs

theorem Orderly.step (o : w.Orderly) (h : Happens w a w') : w'.Orderly := by
  rcases o with u | ⟨k, r, c⟩
  · rcases u.step h with hu | ⟨k, _, r, _, hc⟩
    · exact .inl hu
    · exact .inr ⟨k, r, hc⟩
  · obtain ⟨q, hc⟩ := c.step h
    exact .inr ⟨k, _, hc⟩

theorem orderly_of_run {accounts : List String} (h : (initial accounts).run as = some w) : w.Orderly :=
  run_preserves (fun _ _ _ o hs => o.step hs) (.inl (unclaimed_initial accounts)) h

theorem unclaimed_of_notStarted (o : w.Orderly) (h : w.state = .notStarted) : w.Unclaimed := by
  rcases o with unclaimed | ⟨k, r, c⟩
  · exact unclaimed
  · exact (c.standing.started h).elim

/-! ### Who claims the runner -/

/-- On the way of a schedule, run call `k` takes the runner out of its first state. -/
def Claims (accounts : List String) (as : List Action) (k : Nat) : Prop :=
  ∃ v early v', (initial accounts).Takes as v (.advanceRun k early) v' ∧ v.state = .notStarted ∧ v'.state ≠ .notStarted

theorem claims_concat {accounts : List String} (h : (initial accounts).run as = some v) (ha : v.step a = some v') :
    Claims accounts (as ++ [a]) k ↔
      Claims accounts as k ∨ (∃ early, a = .advanceRun k early) ∧ v.state = .notStarted ∧ v'.state ≠ .notStarted := by
  constructor
  · rintro ⟨u, early, u', ht, hu, hu'⟩
    rcases (takes_concat h ha).1 ht with ht | ⟨rfl, rfl, rfl⟩
    · exact .inl ⟨u, early, u', ht, hu, hu'⟩
    · exact .inr ⟨⟨early, rfl⟩, hu, hu'⟩
  · rintro (⟨u, early, u', ht, hu, hu'⟩ | ⟨⟨early, rfl⟩, hu, hu'⟩)
    · exact ⟨u, early, u', (takes_concat h ha).2 (.inl ht), hu, hu'⟩
    · exact ⟨v, early, v', (takes_concat h ha).2 (.inr ⟨rfl, rfl, rfl⟩), hu, hu'⟩

/-- The call that the invariant names is the one that claimed the runner on the way. -/
theorem claims_of_run {accounts : List String} (h : (initial accounts).run as = some w) :
    (w.Unclaimed ∧ ∀ j, ¬ Claims accounts as j) ∨ ∃ k r, w.ClaimedBy k r ∧ ∀ j, Claims accounts as j ↔ j = k := by
  refine run_induction (P := fun bs v => (v.Unclaimed ∧ ∀ j, ¬ Claims accounts bs j) ∨
    ∃ k r, v.ClaimedBy k r ∧ ∀ j, Claims accounts bs j ↔ j = k) ?_ ?_ h
  · refine .inl ⟨unclaimed_initial accounts, ?_⟩
    rintro j ⟨u, early, u', ht, _⟩
    exact not_takes_nil ht
  · intro bs v b v' hb hp hs
    have last := fun j => claims_concat (k := j) hb (step_iff.2 hs)
    rcases hp with ⟨hu, hn⟩ | ⟨k, r, hc, hk⟩
    · rcases hu.step hs with hu' | ⟨k, early, r, rfl, hc⟩
      · refine .inl ⟨hu', fun j hj => ?_⟩
        rcases (last j).1 hj with hj | ⟨_, _, hj⟩
        · exact hn j hj
        · exact hj hu'.state
      · refine .inr ⟨k, r, hc, fun j => ⟨fun hj => ?_, ?_⟩⟩
        · rcases (last j).1 hj with hj | ⟨⟨_, he⟩, _⟩
          · exact (hn j hj).elim
          · cases he
            rfl
        · rintro rfl
          exact (last j).2 (.inr ⟨⟨early, rfl⟩, hu.state, hc.standing.started⟩)
    · obtain ⟨q, hc'⟩ := hc.step hs
      refine .inr ⟨k, _, hc', fun j => ?_⟩
      rw [last j, hk j]
      refine ⟨fun hj => hj.elim id fun hj => (hc.standing.started hj.2.1).elim, .inl⟩

/-! ### The laws of the life of a runner -/

theorem move_next {source target : Lifecycle} (h : source.next? = some target) :
    (w.move source target).state = w.state ∨ w.state.next? = some (w.move source target).state := by
  by_cases hs : w.state = source
  · refine .inr ?_
    simp [move, Lifecycle.advance, hs, h]
  · exact .inl (by simp [move, Lifecycle.advance, hs])

theorem state_step (h : Happens w a w') : w'.state = w.state ∨ w.state.next? = some w'.state := by
  rcases h.cases with ho | ⟨k, early, r, rfl, hr, hc⟩ | ⟨i, x, e, hx, hw, rfl⟩
  · rcases ho.state with hs | ⟨hr, hs⟩
    · exact .inl hs
    · exact .inr (by rw [hr, hs]; rfl)
  · cases hc with
    | claims => exact move_next (w := w) rfl
    | saysStop | saysNotice | saysEnd => exact move_next (w := w) rfl
    | closes => exact move_next (w := w) rfl
    | _ => exact .inl rfl
  · exact .inl rfl

theorem outside_result {accounts : List String} {result : Except RunnerError Unit} (h : Outside accounts c p)
    (hr : p.result? = some result) : result = .error .noAccounts ∨ result = .error .alreadyStarted := by
  cases p <;> simp only [RunPhase.result?, reduceCtorEq, Option.some.injEq] at hr
  all_goals
    subst hr
    rcases h with ⟨h, _⟩ | ⟨h, _⟩
    · exact .inl h
    · exact .inr h

theorem outside_progress (h : Outside w.accounts r.config r.phase) (hr : w.runs[k]? = some r)
    (hn : r.phase.result? = none) : ∃ w', w.step (.advanceRun k early) = some w' := by
  have go : ∀ {w'}, CallStep w k early r w' → ∃ w', w.step (.advanceRun k early) = some w' :=
    fun hc => ⟨_, step_of_happens (.called k early hr hc)⟩
  cases hp : r.phase with
  | entered =>
    cases hs : r.config.scenario with
    | stream => exact go (.needsNoPool hp hs)
    | balance =>
      by_cases ha : w.accounts = []
      · exact go (.lacksPool hp hs ha)
      · exact go (.findsPool hp hs ha)
  | checked pool =>
    by_cases hs : w.state = .notStarted
    · exact go (.claims hp hs)
    · exact go (.comesLate hp hs)
  | «over» result | returned result =>
    rw [hp] at hn
    cases hn
  | _ =>
    rw [hp] at h
    exact h.elim

theorem standing_result {result : Except RunnerError Unit} (h : w.Standing c p) (hr : p.result? = some result) :
    w.state = .stopped ∧ (result = .ok () ∨ ∃ fault, result = .error (.worker fault)) := by
  have finished : ∀ {res}, w.Standing c (.over res) →
      w.state = .stopped ∧ (res = .ok () ∨ ∃ fault, res = .error (.worker fault)) := by
    rintro res ⟨hs, _, _, _, faults, _, rfl⟩
    refine ⟨hs, ?_⟩
    cases faults with
    | nil => exact .inl rfl
    | cons fault rest => exact .inr ⟨fault, rfl⟩
  cases p <;> simp only [RunPhase.result?, reduceCtorEq, Option.some.injEq] at hr
  all_goals
    subst hr
    exact finished h

theorem standing_stopped (h : w.Standing c p) (hs : w.state = .stopped) :
    w.allTerminated = true ∧ w.Closed ∧ w.workers.size = c.concurrency := by
  have busy : ¬ w.Busy := by
    rintro (hb | hb) <;> rw [hs] at hb <;> cases hb
  cases p with
  | entered | checked pool => exact h.elim
  | claimed pool | panicked | started d | stoppedEarly d | starting d | waiting d | noticed | joining | joined faults
  | ended faults => exact (busy h.1).elim
  | closing faults =>
    have hc : w.state = .stopping := h.1
    rw [hs] at hc
    cases hc
  | «over» result | returned result =>
    obtain ⟨_, hst, _, hc, faults, hg, _⟩ := h
    exact ⟨hg.1, hc, hst.size⟩

structure SetsUp (w w' : World) : Prop where
  empty : w.Unstaffed
  accounts : w'.accounts = w.accounts
  log : w'.log = []
  samples : w'.sink.samples = #[]
  unpoisoned : w'.poisoned = false
  now : w'.now = w.now
  stopped : w'.stopped = w.stopped
  fresh : ∀ (i : Nat) (x : Worker), w'.workers[i]? = some x → ∃ s, x = freshWorker s
  call : ∃ k r, w.ClaimedBy k r ∧ ((∃ pool, r.phase = .claimed pool) ∨ ∃ d, r.phase = .starting d)

theorem Orderly.claimedBy_or_outside (o : w.Orderly) (hr : w.runs[k]? = some r) :
    w.ClaimedBy k r ∨ Outside w.accounts r.config r.phase := by
  rcases o with u | ⟨j, s, c⟩
  · exact .inr (u.others k r hr)
  · by_cases hk : k = j
    · subst hk
      obtain rfl := c.call_eq hr
      exact .inl c
    · exact .inr (c.others k r hk hr)

theorem Orderly.setting (o : w.Orderly) (hr : w.runs[k]? = some r)
    (hp : (∃ pool, r.phase = .claimed pool) ∨ ∃ d, r.phase = .starting d) : w.ClaimedBy k r ∧ w.Unstaffed := by
  rcases o.claimedBy_or_outside hr with c | ho
  · have standing := c.standing
    rcases hp with ⟨pool, hp⟩ | ⟨d, hp⟩
    · rw [hp] at standing
      exact ⟨c, standing.2.1⟩
    · rw [hp] at standing
      exact ⟨c, standing.2.1⟩
  · rcases hp with ⟨pool, hp⟩ | ⟨d, hp⟩
    · rw [hp] at ho
      exact ho.elim
    · rw [hp] at ho
      exact ho.elim

theorem Orderly.cases (o : w.Orderly) (h : Happens w a w') :
    a.worker? = none ∧ (Quiet w w' ∨ SetsUp w w') ∨
    ∃ i x e, a.worker? = some i ∧ w.workers[i]? = some x ∧ WorkerStep w i x a e ∧ w' = w.affect i e := by
  cases ha : a.worker? with
  | some i =>
    obtain ⟨x, e, hx, hw, rfl⟩ := h.worker ha
    exact .inr ⟨i, x, e, rfl, hx, hw, rfl⟩
  | none =>
    refine .inl ⟨rfl, ?_⟩
    rcases h.cases with ho | ⟨k, early, r, rfl, hr, hc⟩ | ⟨i, x, e, _, hw, _⟩
    · exact .inl ho.toQuiet
    · cases hc with
      | @begins pool hp hd =>
        obtain ⟨c, hu⟩ := o.setting hr (.inl ⟨pool, hp⟩)
        refine .inr ⟨hu, rfl, hu.log, hu.samples, hu.unpoisoned, rfl, rfl, ?_, k, r, c, .inl ⟨pool, hp⟩⟩
        exact fun i x hx => (hu.vacant hx).elim
      | @staffs d hp =>
        obtain ⟨c, hu⟩ := o.setting hr (.inr ⟨d, hp⟩)
        refine .inr ⟨hu, rfl, hu.log, hu.samples, hu.unpoisoned, rfl, rfl, fun i x hx => ?_, k, r, c, .inr ⟨d, hp⟩⟩
        change (Array.replicate r.config.concurrency (freshWorker r.config.scenario))[i]? = some x at hx
        rw [Array.getElem?_replicate] at hx
        split at hx <;> cases hx
        exact ⟨_, rfl⟩
      | claims | saysStop | saysNotice | saysEnd | closes => exact .inl quiet_move_setRun
      | notesEnd hp => exact .inl ⟨rfl, rfl, rfl, rfl, rfl, rfl, rfl, rfl, rfl, Nat.le_refl _, id⟩
      | needsNoPool | findsPool | lacksPool | comesLate | leavesRange | seesStop | seesNoStop | joinsFirst | notices
      | joins | returns => exact .inl quiet_setRun
    · rw [hw.worker] at ha
      cases ha

theorem accounts_step (o : w.Orderly) (h : Happens w a w') : w'.accounts = w.accounts := by
  rcases o.cases h with ⟨_, hq | hs⟩ | ⟨i, x, e, _, _, _, rfl⟩
  · exact hq.accounts
  · exact hs.accounts
  · rfl

theorem accounts_of_run {accounts : List String} (h : (initial accounts).run as = some w) : w.accounts = accounts := by
  refine run_induction (P := fun _ v => v.accounts = accounts) rfl ?_ h
  intro bs v b v' hb same hs
  exact (accounts_step (orderly_of_run hb) hs).trans same

theorem Standing.staffed (h : w.Standing c p) (hx : w.workers[i]? = some x) : w.Staffed c ∧ w.Opened c := by
  cases p with
  | entered | checked pool => exact h.elim
  | claimed pool | started d | stoppedEarly d | starting d | panicked => exact (h.2.1.vacant hx).elim
  | waiting d | joined faults | ended faults | closing faults | «over» result | returned result =>
    exact ⟨h.2.1, h.2.2.1⟩
  | noticed | joining => exact h.2

theorem Orderly.staffed (o : w.Orderly) (hx : w.workers[i]? = some x) : ∃ c, w.Staffed c ∧ w.Opened c := by
  rcases o with u | ⟨k, r, c⟩
  · exact (u.unstaffed.vacant hx).elim
  · exact ⟨r.config, c.standing.staffed hx⟩

theorem Standing.inside {accounts : List String} (h : w.Standing c p) : ¬ Outside accounts c p := by
  intro ho
  have finished : ∀ {result}, w.Standing c (.over result) → ¬ Outside accounts c (.over result) := by
    rintro result ⟨_, _, _, _, faults, _, rfl⟩ ho
    cases faults <;> simp [Outside, resultOf] at ho
  cases p with
  | entered | checked pool => exact h
  | «over» result | returned result => exact finished h ho
  | _ => exact ho

theorem ClaimedBy.unique {s : RunCall} (c : w.ClaimedBy k r) (d : w.ClaimedBy j s) : j = k := by
  by_cases hj : j = k
  · exact hj
  · exact (d.standing.inside (c.others j s hj d.call)).elim

theorem claimedBy_of_claims {accounts : List String} (h : (initial accounts).run as = some w)
    (hk : Claims accounts as k) (hr : w.runs[k]? = some r) : w.ClaimedBy k r := by
  rcases claims_of_run h with ⟨_, hn⟩ | ⟨j, s, hc, hj⟩
  · exact (hn k hk).elim
  · have e := (hj k).1 hk
    subst e
    obtain rfl := hc.call_eq hr
    exact hc

theorem claims_of_alone {accounts : List String} (h : (initial accounts).run as = some w) (started : w.state ≠ .notStarted)
    (alone : w.runs.size = 1) : Claims accounts as 0 := by
  rcases claims_of_run h with ⟨u, _⟩ | ⟨k, s, c, hk⟩
  · exact (started u.state).elim
  · have inside : k < w.runs.size := (Array.getElem?_eq_some_iff.1 c.call).1
    exact (hk 0).2 (by omega)

/-- The life of a runner. Whatever is called on it in whatever order, its state goes one step forward at a time; one run
call at most takes it out of its first state, and every other one is turned away without having to wait for anybody;
once it has stopped all workers are gone and the window is closed; and the run that was let in leaves it stopped. -/
theorem lifecycle_of_schedule {accounts : List String} (h : (initial accounts).run as = some w) :
    (∀ v a v', (initial accounts).Takes as v a v' → v'.state = v.state ∨ v.state.next? = some v'.state) ∧
    (∀ v a v', (initial accounts).Takes as v a v' → v.state = .notStarted → v'.state ≠ .notStarted →
      ∃ k early, a = .advanceRun k early) ∧
    (∀ j k, Claims accounts as j → Claims accounts as k → j = k) ∧
    (∀ k r, w.runs[k]? = some r → ¬ Claims accounts as k →
      (∀ result, r.phase.result? = some result → result = .error .noAccounts ∨ result = .error .alreadyStarted) ∧
      (r.phase.result? = none → ∀ early, ∃ w', w.step (.advanceRun k early) = some w')) ∧
    (w.state = .stopped → (∀ (i : Nat) (x : Worker), w.workers[i]? = some x → x.terminated = true) ∧ w.Closed ∧
      ∃ k r, Claims accounts as k ∧ w.runs[k]? = some r ∧ w.workers.size = r.config.concurrency) ∧
    (∀ k r result, Claims accounts as k → w.runs[k]? = some r → r.phase.result? = some result →
      w.state = .stopped ∧ (result = .ok () ∨ ∃ fault, result = .error (.worker fault))) := by
  have hcl := claims_of_run h
  refine ⟨fun v a v' ht => state_step ht.happens, ?_, ?_, ?_, ?_, ?_⟩
  · intro v a v' ht hv hv'
    obtain ⟨bs, cs, hb, _⟩ := ht.rest h
    rcases orderly_of_run hb with hu | ⟨k, r, hc⟩
    · rcases hu.step ht.happens with hu' | ⟨k, early, _, ha, _⟩
      · exact (hv' hu'.state).elim
      · exact ⟨k, early, ha⟩
    · exact (hc.standing.started hv).elim
  · intro j k hj hk
    rcases hcl with ⟨_, hn⟩ | ⟨i, r, _, hi⟩
    · exact (hn j hj).elim
    · rw [(hi j).1 hj, (hi k).1 hk]
  · intro k r hr hk
    have ho : Outside w.accounts r.config r.phase := by
      rcases hcl with ⟨hu, _⟩ | ⟨i, s, hc, hi⟩
      · exact hu.others k r hr
      · exact hc.others k r (fun he => hk ((hi k).2 he)) hr
    exact ⟨fun result hres => outside_result ho hres, fun hn early => outside_progress ho hr hn⟩
  · intro hs
    rcases hcl with ⟨hu, _⟩ | ⟨k, r, hc, hk⟩
    · rw [hu.state] at hs
      cases hs
    · obtain ⟨ht, hclosed, hsize⟩ := standing_stopped hc.standing hs
      exact ⟨allTerminated_iff.1 ht, hclosed, k, r, (hk k).2 rfl, hc.call, hsize⟩
  · intro k r result hk hr hres
    exact standing_result (claimedBy_of_claims h hk hr).standing hres

/-- Two calls of `run` on one runner, and a `stop` between the claim of the first and its look at the flag. -/
def contested : List Action :=
  let config : WorkloadConfig := { scenario := .balance, concurrency := 2, duration := Span.ofSecs 1 }
  [.run config false, .run config true, .advanceRun 0 false, .advanceRun 1 false, .advanceRun 0 false,
    .advanceRun 1 false, .advanceRun 0 false, .stop, .advanceRun 0 false, .stopMoves, .advanceRun 0 false,
    .advanceRun 0 false, .work 0, .work 1, .advanceRun 0 true, .advanceRun 0 false, .advanceRun 0 false,
    .advanceRun 0 false, .advanceRun 0 false, .advanceRun 0 false]

theorem lifecycle_of_contested_run : ∃ w, (initial ["0.0.1"]).run contested = some w ∧ w.state = .stopped ∧
    w.Closed ∧ (∀ (i : Nat) (x : Worker), w.workers[i]? = some x → x.terminated = true) ∧
    ∀ j k, Claims ["0.0.1"] contested j → Claims ["0.0.1"] contested k → j = k := by
  have hs : ((initial ["0.0.1"]).run contested).map (·.state) = some .stopped := by decide +kernel
  obtain ⟨w, h, hw⟩ := Option.map_eq_some_iff.1 hs
  have law := lifecycle_of_schedule h
  obtain ⟨gone, closed, _⟩ := law.2.2.2.2.1 hw
  exact ⟨w, h, hw, closed, gone, law.2.2.1⟩

end World

end Load

end LedgerLoad
