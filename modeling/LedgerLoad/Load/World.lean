import LedgerLoad.Config
import LedgerLoad.Sink
import LedgerLoad.Load.Accounts
import LedgerLoad.Load.Lifecycle
import LedgerLoad.Load.Workload

/-!
A runner with everything that acts on it: its workers, the calls made on it, the stop signal and the target.

The world moves by atomic actions. Which action comes next, how long the target takes and what it answers is left
open: every list of actions is a schedule, and what holds along all of them holds whatever the workers, the target and
the callers do. Time passes only by an action of its own.
-/

set_option autoImplicit false

namespace LedgerLoad.Load

inductive Worker where
  | balance (phase : BalancePhase)
  | stream (phase : StreamPhase)
  /-- A sample is about to be added to the sink. -/
  | recordingBalance (s : Sample) (phase : BalancePhase)
  | recordingStream (s : Sample) (phase : StreamPhase)
  | finished (why : Finish)
  | faulted (fault : WorkerError)
deriving Repr

def Worker.terminated : Worker → Bool
  | .finished _ | .faulted _ => true
  | _ => false

def Worker.fault? : Worker → Option WorkerError
  | .faulted f => some f
  | _ => none

/-- How far a call of `run` has come. -/
inductive RunPhase where
  | entered
  | checked (pool : Option AccountPool)
  /-- The runner is claimed; about to read the clock. -/
  | claimed (pool : Option AccountPool)
  /-- The start of the window is noted; about to look at the stop flag. -/
  | started (deadline : Nat)
  /-- A stop was seen before any worker was started; about to say so. -/
  | stoppedEarly (deadline : Nat)
  | starting (deadline : Nat)
  /-- Waiting for the workers, the deadline or a stop, whichever comes first. -/
  | waiting (deadline : Nat)
  | noticed
  /-- Waiting for the workers alone. -/
  | joining
  | joined (faults : List WorkerError)
  /-- The end is noted; two moves of the state are left. -/
  | ended (faults : List WorkerError)
  | closing (faults : List WorkerError)
  /-- The run is over; resources are attached next, if it was monitored. -/
  | over (result : Except RunnerError Unit)
  | returned (result : Except RunnerError Unit)
  /-- The deadline cannot be represented, and the call panicked. -/
  | panicked

structure RunCall where
  config : WorkloadConfig
  monitored : Bool
  phase : RunPhase := .entered

inductive Entry where
  | called (worker : Nat) (account : String) (at_ : Nat)
  | answered (worker : Nat) (since : Nat) (reply : Except TargetError Unit) (at_ : Nat)
  | panicked (worker : Nat) (at_ : Nat)
  | subscribed (worker : Nat) (rate : Nat) (at_ : Nat)
  | refused (worker : Nat) (e : TargetError) (at_ : Nat)
  | received (worker : Nat) (item : StreamItem) (at_ : Nat)
  | recorded (worker : Nat) (s : Sample) (at_ : Nat)
  | ended (worker : Nat) (at_ : Nat)

structure World where
  accounts : List String
  now : Nat := 0
  /-- The shared stop flag. -/
  stopped : Bool := false
  state : Lifecycle := .notStarted
  sink : Sink := {}
  /-- Whether a panic left the account pool locked. -/
  poisoned : Bool := false
  /-- What the admitted run was asked for, and its deadline. -/
  rate : Nat := 0
  deadline : Nat := 0
  pool : Option AccountPool := none
  workers : Array Worker := #[]
  runs : Array RunCall := #[]
  /-- Calls of `stop` that have set the flag and have yet to move the state. -/
  stopping : Nat := 0
  /-- Newest first. -/
  log : List Entry := []

/-- Deadlines are instants of a clock that counts signed 64-bit seconds. -/
abbrev clockLimit : Nat := 0x8000000000000000 * 1000000000

inductive Action where
  | pass (nanos : Nat)
  | signal
  /-- `stop` is called on the runner: the flag first, then the state. -/
  | stop
  | stopMoves
  | run (config : WorkloadConfig) (monitored : Bool)
  /-- The `k`-th run call takes a step. With `early` it notices the deadline or the stop even if all workers are gone. -/
  | advanceRun (k : Nat) (early : Bool)
  | attach (k : Nat) (stats : ResourceStats)
  | work (i : Nat)
  | call (i : Nat) (random : Nat)
  | answer (i : Nat) (reply : Except TargetError Unit)
  | subscribe (i : Nat)
  | look (i : Nat) (item : Option StreamItem)
  | wake (i : Nat)
  | panic (i : Nat)

namespace World

def view (w : World) : View := ⟨w.stopped, w.now, w.deadline⟩

def note (w : World) (e : Entry) : World := { w with log := e :: w.log }

def setWorker (w : World) (i : Nat) (x : Worker) : World := { w with workers := w.workers.set! i x }

def setRun (w : World) (k : Nat) (phase : RunPhase) : World :=
  { w with runs := w.runs.modify k fun r => { r with phase := phase } }

def move (w : World) (source target : Lifecycle) : World := { w with state := w.state.advance source target }

def allTerminated (w : World) : Bool := w.workers.all Worker.terminated

def faults (w : World) : List WorkerError := w.workers.toList.filterMap Worker.fault?

def resultOf : List WorkerError → Except RunnerError Unit
  | [] => .ok ()
  | f :: _ => .error (.worker f)

def freshWorker : Scenario → Worker
  | .balance => .balance .start
  | .stream => .stream .start

def settleBalance (w : World) (i : Nat) : Progress BalancePhase → World
  | .going p => w.setWorker i (.balance p)
  | .sample s p => w.setWorker i (.recordingBalance s p)
  | .finished why _ => (w.setWorker i (.finished why)).note (.ended i w.now)

def settleStream (w : World) (i : Nat) : Progress StreamPhase → World
  | .going p => w.setWorker i (.stream p)
  | .sample s p => w.setWorker i (.recordingStream s p)
  | .finished why _ => (w.setWorker i (.finished why)).note (.ended i w.now)

def advanceRun (w : World) (k : Nat) (early : Bool) (r : RunCall) : Option World :=
  match r.phase with
  | .entered =>
    match r.config.scenario with
    | .stream => some (w.setRun k (.checked none))
    | .balance =>
      match AccountPool.ofList w.accounts with
      | .ok pool => some (w.setRun k (.checked (some pool)))
      | .error e => some (w.setRun k (.over (.error e)))
  | .checked pool =>
    if w.state = .notStarted then some ((w.move .notStarted .running).setRun k (.claimed pool))
    else some (w.setRun k (.over (.error .alreadyStarted)))
  | .claimed pool =>
    let deadline := w.now + r.config.duration.nanos
    if deadline < clockLimit then
      some ({ w with sink := w.sink.setStart w.now, deadline := deadline, rate := r.config.rate, pool := pool }.setRun k
        (.started deadline))
    else some (w.setRun k .panicked)
  | .started deadline => some (w.setRun k (if w.stopped then .stoppedEarly deadline else .starting deadline))
  | .stoppedEarly deadline => some ((w.move .running .stopping).setRun k (.starting deadline))
  | .starting deadline =>
    some ({ w with workers := Array.replicate r.config.concurrency (freshWorker r.config.scenario) }.setRun k
      (.waiting deadline))
  | .waiting deadline =>
    if !early && w.allTerminated then some (w.setRun k (.joined w.faults))
    else if w.stopped || decide (deadline ≤ w.now) then some (w.setRun k .noticed)
    else none
  | .noticed => some ((w.move .running .stopping).setRun k .joining)
  | .joining => if w.allTerminated then some (w.setRun k (.joined w.faults)) else none
  | .joined faults => some ({ w with sink := w.sink.setEnd w.now }.setRun k (.ended faults))
  | .ended faults => some ((w.move .running .stopping).setRun k (.closing faults))
  | .closing faults => some ((w.move .stopping .stopped).setRun k (.over (resultOf faults)))
  | .over result => if r.monitored then none else some (w.setRun k (.returned result))
  | .returned _ => none
  | .panicked => none

def work (w : World) (i : Nat) : Worker → Option World
  | .balance p => (p.advance w.view).map (w.settleBalance i)
  | .stream p => (p.advance w.view).map (w.settleStream i)
  | .recordingBalance s p =>
    some (({ w with sink := w.sink.add s }.setWorker i (.balance p)).note (.recorded i s w.now))
  | .recordingStream s p =>
    some (({ w with sink := w.sink.add s }.setWorker i (.stream p)).note (.recorded i s w.now))
  | .finished _ => none
  | .faulted _ => none

/-- Worker `i` draws an account and calls the target. The pool is locked for the draw: a panic in it ends the worker
and leaves the pool locked, and a pool left locked is a fault of every worker that draws later. -/
def call (w : World) (i random : Nat) : Worker → Option World
  | .balance .drawing => do
    let pool ← w.pool
    if w.poisoned then return (w.setWorker i (.faulted .poisoned)).note (.ended i w.now)
    match pool.draw random with
    | none => return ({ w with poisoned := true }.setWorker i (.faulted (.lost true))).note (.ended i w.now)
    | some account => return (w.setWorker i (.balance (.calling account w.now))).note (.called i account w.now)
  | _ => none

def answer (w : World) (i : Nat) (reply : Except TargetError Unit) : Worker → Option World
  | .balance (.calling account since) => do
    let progress ← BalancePhase.answer w.view reply (.calling account since)
    return (w.settleBalance i progress).note (.answered i since reply w.now)
  | .stream p => do
    let p ← p.answer reply
    let w := w.setWorker i (.stream p)
    return match reply with
      | .ok () => w
      | .error e => w.note (.refused i e w.now)
  | _ => none

def subscribe (w : World) (i : Nat) : Worker → Option World
  | .stream p => do
    let p ← p.subscribe
    return (w.setWorker i (.stream p)).note (.subscribed i w.rate w.now)
  | _ => none

def look (w : World) (i : Nat) (item : Option StreamItem) : Worker → Option World
  | .stream p => do
    let progress ← p.look item
    let w := w.settleStream i progress
    return match item with
      | some x => w.note (.received i x w.now)
      | none => w
  | _ => none

def wake (w : World) (i : Nat) : Worker → Option World
  | .stream p => (p.wake).map fun p => w.setWorker i (.stream p)
  | _ => none

/-- A panic of the target ends the worker whose call it was. The pool is not locked during a call. -/
def panic (w : World) (i : Nat) : Worker → Option World
  | .balance (.calling _ _) | .stream .subscribing | .stream (.lookingItem _) =>
    some (((w.setWorker i (.faulted (.lost true))).note (.panicked i w.now)).note (.ended i w.now))
  | _ => none

def step (w : World) : Action → Option World
  | .pass nanos => some { w with now := w.now + nanos }
  | .signal => some { w with stopped := true }
  | .stop => some { w with stopped := true, stopping := w.stopping + 1 }
  | .stopMoves => if w.stopping = 0 then none else some { w.move .running .stopping with stopping := w.stopping - 1 }
  | .run config monitored => some { w with runs := w.runs.push { config := config, monitored := monitored } }
  | .advanceRun k early => do w.advanceRun k early (← w.runs[k]?)
  | .attach k stats => do
    let r ← w.runs[k]?
    match r.phase with
    | .over result => if r.monitored then some ({ w with sink := w.sink.setResources stats }.setRun k (.returned result)) else none
    | _ => none
  | .work i => do w.work i (← w.workers[i]?)
  | .call i random => do w.call i random (← w.workers[i]?)
  | .answer i reply => do w.answer i reply (← w.workers[i]?)
  | .subscribe i => do w.subscribe i (← w.workers[i]?)
  | .look i item => do w.look i item (← w.workers[i]?)
  | .wake i => do w.wake i (← w.workers[i]?)
  | .panic i => do w.panic i (← w.workers[i]?)

def run (w : World) : List Action → Option World
  | [] => some w
  | a :: as => do (← w.step a).run as

def initial (accounts : List String) : World := { accounts := accounts }

end World

end LedgerLoad.Load
