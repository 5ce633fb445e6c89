import LedgerLoad.Rehearsal.Stage

/-!
One workload, asked for its units of work by hand.
-/

set_option autoImplicit false

namespace LedgerLoad.Rehearsal

open Load (World Worker Action)

/-- The answer of a workload that was asked for a unit of work. A panic of the target is the third kind. -/
inductive Work where
  | sample (s : Sample)
  | finished (why : Finish)
  | panicked

namespace Solo

def stage (scenario : Scenario) (pool : List String) (rate deadline : Nat) (script : Script) : Stage where
  world := { accounts := pool, pool := some ⟨pool⟩, rate := rate, deadline := deadline,
             workers := #[World.freshWorker scenario] }
  script := script

def work? (s : Stage) : Option Work :=
  match s.worker? 0 with
  | some (.recordingBalance x _) => some (.sample x)
  | some (.recordingStream x _) => some (.sample x)
  | some (.finished why) => some (.finished why)
  | some (.faulted _) => some .panicked
  | _ => none

def reset (scenario : Scenario) (s : Stage) : Stage :=
  match s.worker? 0 with
  | some (.finished why) =>
    let phase := match scenario with
      | .balance => Worker.balance .start
      | .stream => Worker.stream (.done why)
    { s with world := s.world.setWorker 0 phase }
  | some (.recordingBalance _ _) => s.act (.work 0)
  | some (.recordingStream _ _) => s.act (.work 0)
  | _ => s

/-- Goes on until the unit of work is done. A stop may be requested at an instant on the way. -/
def await (stopAt : Option Nat) : Nat → Stage → Stage
  | 0, s => s
  | fuel + 1, s =>
    match work? s with
    | some _ => s
    | none =>
      match s.drive 0 with
      | some s => await stopAt fuel s
      | none =>
        match Stage.sooner s.nextDue (if s.world.stopped then none else stopAt) with
        | none => s
        | some t =>
          let s := s.moveTo t
          await stopAt fuel (if stopAt = some t then s.act .signal else s)

def next (fuel : Nat) (scenario : Scenario) (stopAfter : Option Nat) (s : Stage) : Stage × Option Work :=
  let s := await (stopAfter.map (s.world.now + ·)) fuel s
  (reset scenario s, work? s)

def drain (fuel : Nat) (scenario : Scenario) : Nat → Stage → List Work → Stage × List Work
  | 0, s, acc => (s, acc.reverse)
  | more + 1, s, acc =>
    match next fuel scenario none s with
    | (s, some (.sample x)) => drain fuel scenario more s (.sample x :: acc)
    | (s, some u) => (s, (u :: acc).reverse)
    | (s, none) => (s, acc.reverse)

def stop (s : Stage) : Stage × Bool := (s.act .signal, !s.world.stopped)

def wait (nanos : Nat) (s : Stage) : Stage := s.act (.pass nanos)

end Solo

end LedgerLoad.Rehearsal
