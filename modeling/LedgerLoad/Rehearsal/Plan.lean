import LedgerLoad.Monitor.Loop
import LedgerLoad.Rehearsal.Stage

/-!
A runner played from beginning to end: runs one after the other, with stops requested and the runner looked at on
given instants.
-/

set_option autoImplicit false

namespace LedgerLoad.Rehearsal

open Load (World Worker Action RunPhase RunCall)

inductive Request where
  | stop
  | signal
  | observe
deriving DecidableEq, Repr

structure Observation where
  at_ : Nat
  state : Lifecycle
  total : Nat
  duration : Span

structure Plan where
  accounts : List String
  config : WorkloadConfig
  script : Script
  runs : Nat := 1
  /-- The readings and the interval of the monitor, if the runs are monitored. -/
  monitor : Option (List Probe × Nat) := none
  stopBefore : Bool := false
  stopAfter : Bool := false
  requests : List (Nat × Request) := []
  wired : Bool := true

structure Outcome where
  /-- Before anything, after the early stop, after the runs, after the late stop. -/
  states : List Lifecycle
  runs : List (Option (Except RunnerError Unit))
  observed : List Observation
  stage : Stage

namespace Plan

def callStop (s : Stage) : Stage := (s.act .stop).act .stopMoves

def perform (s : Stage) (seen : List Observation) : Request → Stage × List Observation
  | .stop => (callStop s, seen)
  | .signal => (s.act .signal, seen)
  | .observe =>
    let w := s.world
    (s, ⟨w.now, w.state, w.sink.totalRequests, w.sink.duration⟩ :: seen)

def performDue (s : Stage) (seen : List Observation) :
    List (Nat × Request) → Stage × List Observation × List (Nat × Request)
  | [] => (s, seen, [])
  | (t, r) :: rest =>
    if t ≤ s.world.now then
      let (s, seen) := perform s seen r
      performDue s seen rest
    else (s, seen, (t, r) :: rest)

def advanceRun (k : Nat) : Nat → Stage → Stage
  | 0, s => s
  | fuel + 1, s =>
    match s.world.step (.advanceRun k false) with
    | some w => advanceRun k fuel { s with world := w }
    | none => s

/-- How far run call `k` is from its end: over, but for the monitor, or waiting. -/
def phase (s : Stage) (k : Nat) : RunPhase := ((s.world.runs[k]?).map (·.phase)).getD .panicked

def runDue (s : Stage) (k : Nat) : Option Nat :=
  match phase s k with
  | .waiting deadline => some deadline
  | _ => none

/-- The figures of a monitor after a run. Its first look comes with the workers of the run, the others before its end; a run
that is turned down lets it take none. -/
def figures (monitor : List Probe × Nat) (result : Except RunnerError Unit) (began ended : Nat) : ResourceStats :=
  let stop := match result with
    | .error .noAccounts | .error .alreadyStarted => began
    | _ => max ended (began + 1)
  ((Monitor.start monitor.2 began).runUntil (fun n => monitor.1.getD n .nothing) stop).figures

def playRun (k : Nat) : Nat → Stage → List Observation → List (Nat × Request) →
    Stage × List Observation × List (Nat × Request)
  | 0, s, seen, requests => (s, seen, requests)
  | fuel + 1, s, seen, requests =>
    let s := advanceRun k 16 s
    let (s, seen, requests) := performDue s seen requests
    let s := advanceRun k 16 (s.settle fuel)
    match phase s k with
    | .over _ | .returned _ | .panicked => (s, seen, requests)
    | _ =>
      match Stage.sooner (Stage.sooner s.nextDue (runDue s k)) (requests.head?.map Prod.fst) with
      | none => (s, seen, requests)
      | some t => playRun k fuel (s.moveTo t) seen requests

def playRuns (p : Plan) (fuel : Nat) : Nat → Stage → List Observation → List (Nat × Request) →
    Stage × List Observation × List (Nat × Request)
  | 0, s, seen, requests => (s, seen, requests)
  | left + 1, s, seen, requests =>
    let k := s.world.runs.size
    let began := s.world.now
    let s := s.act (.run p.config p.monitor.isSome)
    let (s, seen, requests) := playRun k fuel s seen requests
    let s := match p.monitor, phase s k with
      | some m, .over result => s.act (.attach k (figures m result began s.world.now))
      | _, _ => s
    playRuns p fuel left s seen requests

def finishRequests (s : Stage) (seen : List Observation) : List (Nat × Request) → Stage × List Observation
  | [] => (s, seen)
  | (t, r) :: rest =>
    let (s, seen) := perform (s.moveTo t) seen r
    finishRequests s seen rest

def resultOf (r : RunCall) : Option (Except RunnerError Unit) :=
  match r.phase with
  | .returned result => some result
  | .over result => some result
  | _ => none

def play (p : Plan) (fuel : Nat) : Outcome :=
  let s : Stage := { world := World.initial p.accounts, script := p.script, wired := p.wired }
  let first := s.world.state
  let s := if p.stopBefore then callStop s else s
  let second := s.world.state
  let (s, seen, requests) := playRuns p fuel p.runs s [] p.requests
  let (s, seen) := finishRequests s seen requests
  let third := s.world.state
  let s := if p.stopAfter then callStop s else s
  { states := [first, second, third, s.world.state]
    runs := s.world.runs.toList.map resultOf
    observed := seen.reverse
    stage := s }

end Plan

end LedgerLoad.Rehearsal
