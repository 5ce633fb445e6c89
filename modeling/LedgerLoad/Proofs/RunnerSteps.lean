import LedgerLoad.Load.World

/-!
What can happen to a runner in one step, said once.

A step is one of three things: something from outside (time, stops, calls made on the runner), a step of a run call, or
a step of one worker. Each is an inductive relation whose cases carry the guards under which they happen, and
`step_iff` says that the relations and the executable step agree.
-/

set_option autoImplicit false

namespace LedgerLoad.Load

def Action.worker? : Action → Option Nat
  | .work i | .call i _ | .answer i _ | .subscribe i | .look i _ | .wake i | .panic i => some i
  | _ => none

def replySample (since at_ : Nat) (reply : Except TargetError Unit) : Sample :=
  let stamp := View.stamp ⟨false, at_, 0⟩
  match reply with
  | .ok () => .succeeded (Span.between since at_) stamp
  | .error e => .failed (Span.between since at_) e.message stamp

def Worker.carried : Worker → Option Sample
  | .recordingBalance s _ | .recordingStream s _ => some s
  | _ => none

/-- What a worker becomes in a step, and what the step adds to the things that workers share: entries of the record,
newest first, a sample for the sink, a lock left behind. -/
structure Effect where
  worker : Worker
  entries : List Entry := []
  sample : Option Sample := none
  poisons : Bool := false

namespace World

def affect (w : World) (i : Nat) (e : Effect) : World :=
  { w with
    workers := w.workers.set! i e.worker
    log := e.entries ++ w.log
    sink := e.sample.elim w.sink w.sink.add
    poisoned := e.poisons || w.poisoned }

inductive BalanceStep (w : World) (i : Nat) : Worker → Action → Effect → Prop where
  | cancels (hs : w.stopped = true) :
      BalanceStep w i (.balance .start) (.work i) ⟨.finished .requestedCancellation, [.ended i w.now], none, false⟩
  | passesFlag (hs : w.stopped = false) : BalanceStep w i (.balance .start) (.work i) ⟨.balance .unstopped, [], none, false⟩
  | elapses (hd : w.deadline ≤ w.now) :
      BalanceStep w i (.balance .unstopped) (.work i) ⟨.finished .elapsed, [.ended i w.now], none, false⟩
  | passesClock (hd : w.now < w.deadline) :
      BalanceStep w i (.balance .unstopped) (.work i) ⟨.balance .drawing, [], none, false⟩
  | findsPoison (n : Nat) {pool : AccountPool} (hp : w.pool = some pool) (hl : w.poisoned = true) :
      BalanceStep w i (.balance .drawing) (.call i n) ⟨.faulted .poisoned, [.ended i w.now], none, false⟩
  | drawsNothing (n : Nat) {pool : AccountPool} (hp : w.pool = some pool) (hn : pool.draw n = none)
      (hl : w.poisoned = false) :
      BalanceStep w i (.balance .drawing) (.call i n) ⟨.faulted (.lost true), [.ended i w.now], none, true⟩
  | calls (n : Nat) {pool : AccountPool} {account : String} (hp : w.pool = some pool)
      (hn : pool.draw n = some account) (hl : w.poisoned = false) :
      BalanceStep w i (.balance .drawing) (.call i n)
        ⟨.balance (.calling account w.now), [.called i account w.now], none, false⟩
  | answered (account : String) (since : Nat) (reply : Except TargetError Unit) :
      BalanceStep w i (.balance (.calling account since)) (.answer i reply)
        ⟨.recordingBalance (replySample since w.now reply) .start, [.answered i since reply w.now], none, false⟩
  | panics (account : String) (since : Nat) :
      BalanceStep w i (.balance (.calling account since)) (.panic i)
        ⟨.faulted (.lost true), [.ended i w.now, .panicked i w.now], none, false⟩
  | records (s : Sample) (p : BalancePhase) :
      BalanceStep w i (.recordingBalance s p) (.work i) ⟨.balance p, [.recorded i s w.now], some s, false⟩

/-- The latency of an event, given the instant of the one before. -/
def gap (last : Option Nat) (at_ : Nat) : Span :=
  match last with
  | some since => Span.between since at_
  | none => Span.zero

inductive StreamStep (w : World) (i : Nat) : Worker → Action → Effect → Prop where
  | cancels (hs : w.stopped = true) :
      StreamStep w i (.stream .start) (.work i) ⟨.finished .requestedCancellation, [.ended i w.now], none, false⟩
  | passesFlag (hs : w.stopped = false) : StreamStep w i (.stream .start) (.work i) ⟨.stream .unstopped, [], none, false⟩
  | elapses (hd : w.deadline ≤ w.now) :
      StreamStep w i (.stream .unstopped) (.work i) ⟨.finished .elapsed, [.ended i w.now], none, false⟩
  | passesClock (hd : w.now < w.deadline) :
      StreamStep w i (.stream .unstopped) (.work i) ⟨.stream .ready, [], none, false⟩
  | subscribes :
      StreamStep w i (.stream .ready) (.subscribe i) ⟨.stream .subscribing, [.subscribed i w.rate w.now], none, false⟩
  | opened : StreamStep w i (.stream .subscribing) (.answer i (.ok ())) ⟨.stream (.looking none), [], none, false⟩
  | refused (e : TargetError) :
      StreamStep w i (.stream .subscribing) (.answer i (.error e)) ⟨.stream (.failing e), [.refused i e w.now], none, false⟩
  | panicsSubscribing :
      StreamStep w i (.stream .subscribing) (.panic i)
        ⟨.faulted (.lost true), [.ended i w.now, .panicked i w.now], none, false⟩
  | cancelsOpen (last : Option Nat) (hs : w.stopped = true) :
      StreamStep w i (.stream (.looking last)) (.work i)
        ⟨.finished .requestedCancellation, [.ended i w.now], none, false⟩
  | passesFlagOpen (last : Option Nat) (hs : w.stopped = false) :
      StreamStep w i (.stream (.looking last)) (.work i) ⟨.stream (.lookingClock last), [], none, false⟩
  | elapsesOpen (last : Option Nat) (hd : w.deadline ≤ w.now) :
      StreamStep w i (.stream (.lookingClock last)) (.work i) ⟨.finished .elapsed, [.ended i w.now], none, false⟩
  | passesClockOpen (last : Option Nat) (hd : w.now < w.deadline) :
      StreamStep w i (.stream (.lookingClock last)) (.work i) ⟨.stream (.lookingItem last), [], none, false⟩
  | parks (last : Option Nat) :
      StreamStep w i (.stream (.lookingItem last)) (.look i none) ⟨.stream (.parked last), [], none, false⟩
  | receives (last : Option Nat) :
      StreamStep w i (.stream (.lookingItem last)) (.look i (some .event))
        ⟨.stream (.received last), [.received i .event w.now], none, false⟩
  | fails (last : Option Nat) (e : TargetError) :
      StreamStep w i (.stream (.lookingItem last)) (.look i (some (.error e)))
        ⟨.stream (.failing e), [.received i (.error e) w.now], none, false⟩
  | closes (last : Option Nat) :
      StreamStep w i (.stream (.lookingItem last)) (.look i (some .close))
        ⟨.finished .exhausted, [.received i .close w.now, .ended i w.now], none, false⟩
  | panicsOpen (last : Option Nat) :
      StreamStep w i (.stream (.lookingItem last)) (.panic i)
        ⟨.faulted (.lost true), [.ended i w.now, .panicked i w.now], none, false⟩
  | wakes (last : Option Nat) : StreamStep w i (.stream (.parked last)) (.wake i) ⟨.stream (.looking last), [], none, false⟩
  | times (last : Option Nat) :
      StreamStep w i (.stream (.received last)) (.work i)
        ⟨.recordingStream (.succeeded (gap last w.now) w.view.stamp) (.looking (some w.now)), [], none, false⟩
  | cancelsFailure (e : TargetError) (hs : w.stopped = true) :
      StreamStep w i (.stream (.failing e)) (.work i)
        ⟨.finished .requestedCancellation, [.ended i w.now], none, false⟩
  | reports (e : TargetError) (hs : w.stopped = false) :
      StreamStep w i (.stream (.failing e)) (.work i)
        ⟨.recordingStream (.failed Span.zero e.message w.view.stamp) (.done .unexpectedStreamFailure), [], none, false⟩
  | repeats (why : Finish) :
      StreamStep w i (.stream (.done why)) (.work i) ⟨.finished why, [.ended i w.now], none, false⟩
  | records (s : Sample) (p : StreamPhase) :
      StreamStep w i (.recordingStream s p) (.work i) ⟨.stream p, [.recorded i s w.now], some s, false⟩

def WorkerStep (w : World) (i : Nat) (x : Worker) (a : Action) (e : Effect) : Prop :=
  BalanceStep w i x a e ∨ StreamStep w i x a e

inductive CallStep (w : World) (k : Nat) (early : Bool) (r : RunCall) : World → Prop where
  | needsNoPool (hp : r.phase = .entered) (hs : r.config.scenario = .stream) :
      CallStep w k early r (w.setRun k (.checked none))
  | findsPool (hp : r.phase = .entered) (hs : r.config.scenario = .balance) (ha : w.accounts ≠ []) :
      CallStep w k early r (w.setRun k (.checked (some ⟨w.accounts⟩)))
  | lacksPool (hp : r.phase = .entered) (hs : r.config.scenario = .balance) (ha : w.accounts = []) :
      CallStep w k early r (w.setRun k (.over (.error .noAccounts)))
  | claims {pool : Option AccountPool} (hp : r.phase = .checked pool) (hs : w.state = .notStarted) :
      CallStep w k early r ((w.move .notStarted .running).setRun k (.claimed pool))
  | comesLate {pool : Option AccountPool} (hp : r.phase = .checked pool) (hs : w.state ≠ .notStarted) :
      CallStep w k early r (w.setRun k (.over (.error .alreadyStarted)))
  | begins {pool : Option AccountPool} (hp : r.phase = .claimed pool)
      (hd : w.now + r.config.duration.nanos < clockLimit) :
      CallStep w k early r ({ w with
        sink := w.sink.setStart w.now, deadline := w.now + r.config.duration.nanos
        rate := r.config.rate, pool := pool }.setRun k (.started (w.now + r.config.duration.nanos)))
  | leavesRange {pool : Option AccountPool} (hp : r.phase = .claimed pool)
      (hd : clockLimit ≤ w.now + r.config.duration.nanos) : CallStep w k early r (w.setRun k .panicked)
  | seesStop {d : Nat} (hp : r.phase = .started d) (hs : w.stopped = true) :
      CallStep w k early r (w.setRun k (.stoppedEarly d))
  | seesNoStop {d : Nat} (hp : r.phase = .started d) (hs : w.stopped = false) :
      CallStep w k early r (w.setRun k (.starting d))
  | saysStop {d : Nat} (hp : r.phase = .stoppedEarly d) :
      CallStep w k early r ((w.move .running .stopping).setRun k (.starting d))
  | staffs {d : Nat} (hp : r.phase = .starting d) :
      CallStep w k early r ({ w with
        workers := Array.replicate r.config.concurrency (freshWorker r.config.scenario) }.setRun k (.waiting d))
  | joinsFirst {d : Nat} (hp : r.phase = .waiting d) (he : early = false) (ht : w.allTerminated = true) :
      CallStep w k early r (w.setRun k (.joined w.faults))
  | notices {d : Nat} (hp : r.phase = .waiting d) (he : early = true ∨ w.allTerminated = false)
      (hd : w.stopped = true ∨ d ≤ w.now) :
      CallStep w k early r (w.setRun k .noticed)
  | saysNotice (hp : r.phase = .noticed) : CallStep w k early r ((w.move .running .stopping).setRun k .joining)
  | joins (hp : r.phase = .joining) (ht : w.allTerminated = true) : CallStep w k early r (w.setRun k (.joined w.faults))
  | notesEnd {fs : List WorkerError} (hp : r.phase = .joined fs) :
      CallStep w k early r ({ w with sink := w.sink.setEnd w.now }.setRun k (.ended fs))
  | saysEnd {fs : List WorkerError} (hp : r.phase = .ended fs) :
      CallStep w k early r ((w.move .running .stopping).setRun k (.closing fs))
  | closes {fs : List WorkerError} (hp : r.phase = .closing fs) :
      CallStep w k early r ((w.move .stopping .stopped).setRun k (.over (resultOf fs)))
  | returns {result : Except RunnerError Unit} (hp : r.phase = .over result) (hm : r.monitored = false) :
      CallStep w k early r (w.setRun k (.returned result))

inductive Happens (w : World) : Action → World → Prop where
  | passes (n : Nat) : Happens w (.pass n) { w with now := w.now + n }
  | signalled : Happens w .signal { w with stopped := true }
  | stopCalled : Happens w .stop { w with stopped := true, stopping := w.stopping + 1 }
  | stopMoves (h : w.stopping ≠ 0) :
      Happens w .stopMoves { w.move .running .stopping with stopping := w.stopping - 1 }
  | runCalled (config : WorkloadConfig) (monitored : Bool) :
      Happens w (.run config monitored) { w with runs := w.runs.push { config := config, monitored := monitored } }
  | attached (k : Nat) (stats : ResourceStats) {r : RunCall} {result : Except RunnerError Unit}
      (hr : w.runs[k]? = some r) (hp : r.phase = .over result) (hm : r.monitored = true) :
      Happens w (.attach k stats) ({ w with sink := w.sink.setResources stats }.setRun k (.returned result))
  | called (k : Nat) (early : Bool) {r : RunCall} {w' : World} (hr : w.runs[k]? = some r)
      (h : CallStep w k early r w') : Happens w (.advanceRun k early) w'
  | worked {i : Nat} {x : Worker} {a : Action} {e : Effect} (hx : w.workers[i]? = some x)
      (h : WorkerStep w i x a e) : Happens w a (w.affect i e)

/-! ### The relations and the step agree -/

variable {w w' : World} {a : Action} {i k : Nat} {x : Worker} {e : Effect} {r : RunCall} {early : Bool}

theorem step_of_balanceStep (hx : w.workers[i]? = some x) (h : BalanceStep w i x a e) :
    w.step a = some (w.affect i e) := by
  cases h with
  | cancels hs => simp [step, hx, work, BalancePhase.advance, view, hs]; rfl
  | passesFlag hs => simp [step, hx, work, BalancePhase.advance, view, hs]; rfl
  | elapses hd => simp [step, hx, work, BalancePhase.advance, view, hd]; rfl
  | passesClock hd => simp [step, hx, work, BalancePhase.advance, view, Nat.not_le.2 hd]; rfl
  | findsPoison n hp hl => simp [step, hx, call, hp, hl, affect, setWorker, note]
  | drawsNothing n hp hn hl => simp [step, hx, call, hp, hn, hl, affect, setWorker, note]
  | calls n hp hn hl => simp [step, hx, call, hp, hn, hl, affect, setWorker, note]
  | answered account since reply => simp [step, hx, answer, BalancePhase.answer]; cases reply <;> rfl
  | panics account since => simp [step, hx, panic]; rfl
  | records s p => simp [step, hx, work]; rfl

theorem step_of_streamStep (hx : w.workers[i]? = some x) (h : StreamStep w i x a e) :
    w.step a = some (w.affect i e) := by
  cases h with
  | cancels hs | passesFlag hs | cancelsOpen last hs | passesFlagOpen last hs | cancelsFailure e hs | reports e hs =>
    simp [step, hx, work, StreamPhase.advance, StreamPhase.finish, view, hs]; rfl
  | elapses hd | elapsesOpen last hd =>
    simp [step, hx, work, StreamPhase.advance, StreamPhase.finish, view, hd]; rfl
  | passesClock hd | passesClockOpen last hd =>
    simp [step, hx, work, StreamPhase.advance, view, Nat.not_le.2 hd]; rfl
  | subscribes => simp [step, hx, subscribe, StreamPhase.subscribe]; rfl
  | opened | refused e => simp [step, hx, answer, StreamPhase.answer]; rfl
  | panicsSubscribing | panicsOpen last => simp [step, hx, panic]; rfl
  | parks last | receives last | fails last e | closes last =>
    simp [step, hx, look, StreamPhase.look, StreamPhase.finish]; rfl
  | wakes last => simp [step, hx, wake, StreamPhase.wake]; rfl
  | times last => simp [step, hx, work, StreamPhase.advance]; cases last <;> rfl
  | repeats why => simp [step, hx, work, StreamPhase.advance, StreamPhase.finish]; rfl
  | records s p => simp [step, hx, work]; rfl

theorem balanceStep_of_work {p : BalancePhase} (h : w.work i (.balance p) = some w') :
    ∃ e, BalanceStep w i (.balance p) (.work i) e ∧ w' = w.affect i e := by
  cases p with
  | start =>
    cases hs : w.stopped with
    | true => exact ⟨_, .cancels hs, by simp [work, BalancePhase.advance, view, hs] at h; exact h.symm⟩
    | false => exact ⟨_, .passesFlag hs, by simp [work, BalancePhase.advance, view, hs] at h; exact h.symm⟩
  | unstopped =>
    by_cases hd : w.deadline ≤ w.now
    · exact ⟨_, .elapses hd, by simp [work, BalancePhase.advance, view, hd] at h; exact h.symm⟩
    · exact ⟨_, .passesClock (by omega), by simp [work, BalancePhase.advance, view, hd] at h; exact h.symm⟩
  | drawing | calling account since => simp [work, BalancePhase.advance] at h

theorem streamStep_of_work {p : StreamPhase} (h : w.work i (.stream p) = some w') :
    ∃ e, StreamStep w i (.stream p) (.work i) e ∧ w' = w.affect i e := by
  cases p with
  | start =>
    cases hs : w.stopped with
    | true => exact ⟨_, .cancels hs, by simp [work, StreamPhase.advance, StreamPhase.finish, view, hs] at h; exact h.symm⟩
    | false => exact ⟨_, .passesFlag hs, by simp [work, StreamPhase.advance, view, hs] at h; exact h.symm⟩
  | unstopped =>
    by_cases hd : w.deadline ≤ w.now
    · exact ⟨_, .elapses hd, by simp [work, StreamPhase.advance, StreamPhase.finish, view, hd] at h; exact h.symm⟩
    · exact ⟨_, .passesClock (by omega), by simp [work, StreamPhase.advance, view, hd] at h; exact h.symm⟩
  | looking last =>
    cases hs : w.stopped with
    | true =>
      exact ⟨_, .cancelsOpen last hs, by
        simp [work, StreamPhase.advance, StreamPhase.finish, view, hs] at h; exact h.symm⟩
    | false => exact ⟨_, .passesFlagOpen last hs, by simp [work, StreamPhase.advance, view, hs] at h; exact h.symm⟩
  | lookingClock last =>
    by_cases hd : w.deadline ≤ w.now
    · exact ⟨_, .elapsesOpen last hd, by
        simp [work, StreamPhase.advance, StreamPhase.finish, view, hd] at h; exact h.symm⟩
    · exact ⟨_, .passesClockOpen last (by omega), by simp [work, StreamPhase.advance, view, hd] at h; exact h.symm⟩
  | received last =>
    refine ⟨_, .times last, ?_⟩
    cases last <;> simp [work, StreamPhase.advance] at h <;> exact h.symm
  | failing e =>
    cases hs : w.stopped with
    | true =>
      exact ⟨_, .cancelsFailure e hs, by
        simp [work, StreamPhase.advance, StreamPhase.finish, view, hs] at h; exact h.symm⟩
    | false =>
      refine ⟨_, .reports e hs, ?_⟩
      simp [work, StreamPhase.advance, view, hs] at h
      rw [← h]
      simp [settleStream, setWorker, affect, view, hs]
  | done why => exact ⟨_, .repeats why, by simp [work, StreamPhase.advance, StreamPhase.finish] at h; exact h.symm⟩
  | ready | subscribing | lookingItem last | parked last => simp [work, StreamPhase.advance] at h

theorem workerStep_of_work (h : w.work i x = some w') : ∃ e, WorkerStep w i x (.work i) e ∧ w' = w.affect i e := by
  cases x with
  | balance p =>
    obtain ⟨e, he, hw⟩ := balanceStep_of_work h
    exact ⟨e, .inl he, hw⟩
  | stream p =>
    obtain ⟨e, he, hw⟩ := streamStep_of_work h
    exact ⟨e, .inr he, hw⟩
  | recordingBalance s p => exact ⟨_, .inl (.records s p), by simp [work] at h; exact h.symm⟩
  | recordingStream s p => exact ⟨_, .inr (.records s p), by simp [work] at h; exact h.symm⟩
  | finished why | faulted fault => simp [work] at h

theorem workerStep_of_call {n : Nat} (h : w.call i n x = some w') :
    ∃ e, WorkerStep w i x (.call i n) e ∧ w' = w.affect i e := by
  match x with
  | .balance .drawing =>
    simp only [call, Option.bind_eq_bind, Option.bind_eq_some_iff, Option.pure_def] at h
    obtain ⟨pool, hp, h⟩ := h
    cases hl : w.poisoned with
    | true =>
      refine ⟨_, .inl (.findsPoison n hp hl), ?_⟩
      simp [hl] at h
      simp [← h, affect, setWorker, note, hl]
    | false =>
      cases hn : pool.draw n with
      | none =>
        refine ⟨_, .inl (.drawsNothing n hp hn hl), ?_⟩
        simp [hl, hn] at h
        simp [← h, affect, setWorker, note]
      | some account =>
        refine ⟨_, .inl (.calls n hp hn hl), ?_⟩
        simp [hl, hn] at h
        simp [← h, affect, setWorker, note, hl]
  | .balance .start | .balance .unstopped | .balance (.calling _ _) | .stream _ | .recordingBalance _ _
  | .recordingStream _ _ | .finished _ | .faulted _ => simp [call] at h

theorem workerStep_of_answer {reply : Except TargetError Unit} (h : w.answer i reply x = some w') :
    ∃ e, WorkerStep w i x (.answer i reply) e ∧ w' = w.affect i e := by
  match x with
  | .balance (.calling account since) =>
    refine ⟨_, .inl (.answered account since reply), ?_⟩
    cases reply <;> simp [answer, BalancePhase.answer] at h <;> exact h.symm
  | .stream .subscribing =>
    cases reply with
    | ok u => exact ⟨_, .inr .opened, by simp [answer, StreamPhase.answer] at h; exact h.symm⟩
    | error e => exact ⟨_, .inr (.refused e), by simp [answer, StreamPhase.answer] at h; exact h.symm⟩
  | .balance .start | .balance .unstopped | .balance .drawing | .stream .start | .stream .unstopped | .stream .ready
  | .stream (.looking _) | .stream (.lookingClock _) | .stream (.lookingItem _) | .stream (.parked _)
  | .stream (.received _) | .stream (.failing _) | .stream (.done _) | .recordingBalance _ _ | .recordingStream _ _
  | .finished _ | .faulted _ => simp [answer, StreamPhase.answer] at h

theorem workerStep_of_subscribe (h : w.subscribe i x = some w') :
    ∃ e, WorkerStep w i x (.subscribe i) e ∧ w' = w.affect i e := by
  cases x with
  | stream p =>
    cases p with
    | ready => exact ⟨_, .inr .subscribes, by simp [subscribe, StreamPhase.subscribe] at h; exact h.symm⟩
    | _ => simp [subscribe, StreamPhase.subscribe] at h
  | _ => simp [subscribe] at h

theorem workerStep_of_look {item : Option StreamItem} (h : w.look i item x = some w') :
    ∃ e, WorkerStep w i x (.look i item) e ∧ w' = w.affect i e := by
  cases x with
  | stream p =>
    cases p with
    | lookingItem last =>
      cases item with
      | none => exact ⟨_, .inr (.parks last), by simp [look, StreamPhase.look] at h; exact h.symm⟩
      | some item =>
        cases item with
        | event => exact ⟨_, .inr (.receives last), by simp [look, StreamPhase.look] at h; exact h.symm⟩
        | error e => exact ⟨_, .inr (.fails last e), by simp [look, StreamPhase.look] at h; exact h.symm⟩
        | close =>
          exact ⟨_, .inr (.closes last), by simp [look, StreamPhase.look, StreamPhase.finish] at h; exact h.symm⟩
    | _ => simp [look, StreamPhase.look] at h
  | _ => simp [look] at h

theorem workerStep_of_wake (h : w.wake i x = some w') : ∃ e, WorkerStep w i x (.wake i) e ∧ w' = w.affect i e := by
  cases x with
  | stream p =>
    cases p with
    | parked last => exact ⟨_, .inr (.wakes last), by simp [wake, StreamPhase.wake] at h; exact h.symm⟩
    | _ => simp [wake, StreamPhase.wake] at h
  | _ => simp [wake] at h

theorem workerStep_of_panic (h : w.panic i x = some w') :
    ∃ e, WorkerStep w i x (.panic i) e ∧ w' = w.affect i e := by
  match x with
  | .balance (.calling account since) => exact ⟨_, .inl (.panics account since), by simp [panic] at h; exact h.symm⟩
  | .stream .subscribing => exact ⟨_, .inr .panicsSubscribing, by simp [panic] at h; exact h.symm⟩
  | .stream (.lookingItem last) => exact ⟨_, .inr (.panicsOpen last), by simp [panic] at h; exact h.symm⟩
  | .balance .start | .balance .unstopped | .balance .drawing | .stream .start | .stream .unstopped | .stream .ready
  | .stream (.looking _) | .stream (.lookingClock _) | .stream (.parked _) | .stream (.received _)
  | .stream (.failing _) | .stream (.done _) | .recordingBalance _ _ | .recordingStream _ _ | .finished _
  | .faulted _ => simp [panic] at h

theorem callStep_of_advanceRun (h : w.advanceRun k early r = some w') : CallStep w k early r w' := by
  cases hp : r.phase with
  | entered =>
    cases hs : r.config.scenario with
    | stream => simp [advanceRun, hp, hs] at h; exact h ▸ .needsNoPool hp hs
    | balance =>
      by_cases ha : w.accounts = []
      · simp [advanceRun, hp, hs, ha, AccountPool.ofList] at h; exact h ▸ .lacksPool hp hs ha
      · simp [advanceRun, hp, hs, ha, AccountPool.ofList] at h; exact h ▸ .findsPool hp hs ha
  | checked pool =>
    by_cases hs : w.state = .notStarted
    · simp [advanceRun, hp, hs] at h; exact h ▸ .claims hp hs
    · simp [advanceRun, hp, hs] at h; exact h ▸ .comesLate hp hs
  | claimed pool =>
    by_cases hd : w.now + r.config.duration.nanos < clockLimit
    · simp [advanceRun, hp, hd] at h; exact h ▸ .begins hp hd
    · simp [advanceRun, hp, hd] at h; exact h ▸ .leavesRange hp (by omega)
  | started d =>
    cases hs : w.stopped with
    | true => simp [advanceRun, hp, hs] at h; exact h ▸ .seesStop hp hs
    | false => simp [advanceRun, hp, hs] at h; exact h ▸ .seesNoStop hp hs
  | stoppedEarly d => simp [advanceRun, hp] at h; exact h ▸ .saysStop hp
  | starting d => simp [advanceRun, hp] at h; exact h ▸ .staffs hp
  | waiting d =>
    simp only [advanceRun, hp] at h
    split at h
    · rename_i hc
      simp only [Bool.and_eq_true, Bool.not_eq_true'] at hc
      simp only [Option.some.injEq] at h
      exact h ▸ .joinsFirst hp hc.1 hc.2
    · rename_i hc
      split at h
      · rename_i hd
        simp only [Option.some.injEq] at h
        refine h ▸ .notices hp ?_ (by simpa using hd)
        cases early <;> simp_all
      · cases h
  | noticed => simp [advanceRun, hp] at h; exact h ▸ .saysNotice hp
  | joining =>
    simp only [advanceRun, hp] at h
    split at h
    · rename_i ht
      simp only [Option.some.injEq] at h
      exact h ▸ .joins hp ht
    · cases h
  | joined fs => simp [advanceRun, hp] at h; exact h ▸ .notesEnd hp
  | ended fs => simp [advanceRun, hp] at h; exact h ▸ .saysEnd hp
  | closing fs => simp [advanceRun, hp] at h; exact h ▸ .closes hp
  | «over» result =>
    cases hm : r.monitored with
    | true => simp [advanceRun, hp, hm] at h
    | false => simp [advanceRun, hp, hm] at h; exact h ▸ .returns hp hm
  | returned result | panicked => simp [advanceRun, hp] at h

theorem advanceRun_of_callStep (h : CallStep w k early r w') : w.advanceRun k early r = some w' := by
  cases h with
  | needsNoPool hp hs => simp [advanceRun, hp, hs]
  | findsPool hp hs ha => simp [advanceRun, hp, hs, ha, AccountPool.ofList]
  | lacksPool hp hs ha => simp [advanceRun, hp, hs, ha, AccountPool.ofList]
  | claims hp hs => simp [advanceRun, hp, hs]
  | comesLate hp hs => simp [advanceRun, hp, hs]
  | begins hp hd => simp [advanceRun, hp, hd]
  | leavesRange hp hd => simp [advanceRun, hp, Nat.not_lt.2 hd]
  | seesStop hp hs => simp [advanceRun, hp, hs]
  | seesNoStop hp hs => simp [advanceRun, hp, hs]
  | saysStop hp => simp [advanceRun, hp]
  | staffs hp => simp [advanceRun, hp]
  | joinsFirst hp he ht => simp [advanceRun, hp, he, ht]
  | notices hp he hd =>
    rcases he with he | he <;> simp [advanceRun, hp, he, hd]
  | saysNotice hp => simp [advanceRun, hp]
  | joins hp ht => simp [advanceRun, hp, ht]
  | notesEnd hp => simp [advanceRun, hp]
  | saysEnd hp => simp [advanceRun, hp]
  | closes hp => simp [advanceRun, hp]
  | returns hp hm => simp [advanceRun, hp, hm]

theorem happens_of_step (h : w.step a = some w') : Happens w a w' := by
  cases a with
  | pass n => cases h; exact .passes n
  | signal => cases h; exact .signalled
  | stop => cases h; exact .stopCalled
  | stopMoves =>
    simp only [step] at h
    split at h
    · cases h
    · rename_i hs
      cases h
      exact .stopMoves hs
  | run config monitored => cases h; exact .runCalled config monitored
  | advanceRun k early =>
    obtain ⟨r, hr, h⟩ := Option.bind_eq_some_iff.1 h
    exact .called k early hr (callStep_of_advanceRun h)
  | attach k stats =>
    obtain ⟨r, hr, h⟩ := Option.bind_eq_some_iff.1 h
    cases hp : r.phase with
    | «over» result =>
      cases hm : r.monitored with
      | true =>
        simp [hp, hm] at h
        exact h ▸ .attached k stats hr hp hm
      | false => simp [hp, hm] at h
    | _ => simp [hp] at h
  | work i =>
    obtain ⟨x, hx, h⟩ := Option.bind_eq_some_iff.1 h
    obtain ⟨e, he, rfl⟩ := workerStep_of_work h
    exact .worked hx he
  | call i n =>
    obtain ⟨x, hx, h⟩ := Option.bind_eq_some_iff.1 h
    obtain ⟨e, he, rfl⟩ := workerStep_of_call h
    exact .worked hx he
  | answer i reply =>
    obtain ⟨x, hx, h⟩ := Option.bind_eq_some_iff.1 h
    obtain ⟨e, he, rfl⟩ := workerStep_of_answer h
    exact .worked hx he
  | subscribe i =>
    obtain ⟨x, hx, h⟩ := Option.bind_eq_some_iff.1 h
    obtain ⟨e, he, rfl⟩ := workerStep_of_subscribe h
    exact .worked hx he
  | look i item =>
    obtain ⟨x, hx, h⟩ := Option.bind_eq_some_iff.1 h
    obtain ⟨e, he, rfl⟩ := workerStep_of_look h
    exact .worked hx he
  | wake i =>
    obtain ⟨x, hx, h⟩ := Option.bind_eq_some_iff.1 h
    obtain ⟨e, he, rfl⟩ := workerStep_of_wake h
    exact .worked hx he
  | panic i =>
    obtain ⟨x, hx, h⟩ := Option.bind_eq_some_iff.1 h
    obtain ⟨e, he, rfl⟩ := workerStep_of_panic h
    exact .worked hx he

theorem step_of_happens (h : Happens w a w') : w.step a = some w' := by
  cases h with
  | passes n => rfl
  | signalled => rfl
  | stopCalled => rfl
  | stopMoves hs => simp [step, hs]
  | runCalled config monitored => rfl
  | attached k stats hr hp hm => simp [step, hr, hp, hm]
  | called k early hr h => simp [step, hr, advanceRun_of_callStep h]
  | worked hx h =>
    rcases h with h | h
    · exact step_of_balanceStep hx h
    · exact step_of_streamStep hx h

/-- The relations say exactly what the executable step does. -/
theorem step_iff : w.step a = some w' ↔ Happens w a w' := ⟨happens_of_step, step_of_happens⟩

end World

end LedgerLoad.Load
