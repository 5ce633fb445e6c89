import LedgerLoad.Load.World
import LedgerLoad.Rehearsal.Script

/-!
A world played by a script in virtual time.

Only the waits of the script take time. At each instant the workers go on, one after the other, until none of them can;
then the clock moves to the next instant at which something is due. All that happens to the world happens by its own
actions.
-/

set_option autoImplicit false

namespace LedgerLoad.Rehearsal

open Load (World Worker Action)

structure Seat where
  /-- How the answer is played that the worker awaits, and when it is due. -/
  cue : Cue := {}
  due : Nat := 0
  /-- Whether the answer was asked for, and will ever come. -/
  awaited : Bool := false
  feed : Feed := {}
  place : Nat := 0

def Seat.empty : Seat := {}

structure Stage where
  world : World
  script : Script
  seats : Array Seat := #[]
  callsMade : Nat := 0
  feedsOpened : Nat := 0
  /-- Whether the stop signal of the script is that of the runner. -/
  wired : Bool := true

namespace Stage

def act (s : Stage) (a : Action) : Stage := { s with world := (s.world.step a).getD s.world }

def worker? (s : Stage) (i : Nat) : Option Worker := s.world.workers[i]?

def seat (s : Stage) (i : Nat) : Seat := (s.seats[i]?).getD Seat.empty

def setSeat (s : Stage) (i : Nat) (x : Seat) : Stage :=
  if i < s.seats.size then { s with seats := s.seats.set! i x }
  else { s with seats := (s.seats ++ Array.replicate (i - s.seats.size) Seat.empty).push x }

def heed (s : Stage) (c : Cue) : Stage := if c.stop && s.wired then s.act .signal else s

def await (s : Stage) (i : Nat) (seat : Seat) (c : Cue) : Stage :=
  s.setSeat i { seat with cue := c, due := s.world.now + c.wait, awaited := true }

def reply (c : Cue) : Except TargetError Unit :=
  match c.error with
  | some e => .error e
  | none => .ok ()

def askItem (s : Stage) (i : Nat) : Stage :=
  let seat := s.seat i
  match seat.feed.offer seat.place with
  | .cue c => s.await i { seat with place := seat.place + 1 } c
  | _ => s

def lookItem (s : Stage) (i : Nat) : Stage :=
  let s := if (s.seat i).awaited then s else s.askItem i
  let seat := s.seat i
  if seat.awaited then
    if seat.due ≤ s.world.now then
      let s := (s.heed seat.cue).setSeat i { seat with awaited := false }
      if seat.cue.panic then s.act (.panic i)
      else s.act (.look i (some (match seat.cue.error with | some e => .error e | none => .event)))
    else s.act (.look i none)
  else match seat.feed.offer seat.place with
    | .close => s.act (.look i (some .close))
    | _ => s.act (.look i none)

def playAnswer (s : Stage) (i : Nat) : Option Stage :=
  let seat := s.seat i
  if seat.awaited && decide (seat.due ≤ s.world.now) then
    let s := (s.heed seat.cue).setSeat i { seat with awaited := false }
    some (if seat.cue.panic then s.act (.panic i) else s.act (.answer i (reply seat.cue)))
  else none

def drive (s : Stage) (i : Nat) : Option Stage :=
  match s.worker? i with
  | none => none
  | some (.finished _) => none
  | some (.faulted _) => none
  | some (.balance .drawing) =>
    let s' := s.act (.call i s.callsMade)
    match s'.worker? i with
    | some (.balance (.calling account _)) =>
      some ({ s' with callsMade := s.callsMade + 1 }.await i (s.seat i) (s.script.call s.callsMade account))
    | _ => some s'
  | some (.balance (.calling _ _)) => s.playAnswer i
  | some (.stream .ready) =>
    let feed := s.script.feed s.feedsOpened s.world.rate
    some ({ s.act (.subscribe i) with feedsOpened := s.feedsOpened + 1 }.await i { feed := feed } feed.subscribe)
  | some (.stream .subscribing) => s.playAnswer i
  | some (.stream (.lookingItem _)) => some (s.lookItem i)
  | some (.stream (.parked _)) =>
    let seat := s.seat i
    if s.world.stopped || decide (s.world.deadline ≤ s.world.now) ||
        (seat.awaited && decide (seat.due ≤ s.world.now)) then some (s.act (.wake i))
    else none
  | some _ => some (s.act (.work i))

/-- Drives worker `i` until it can do no more at this instant, and tells whether it did anything. -/
def driveAll (i : Nat) : Nat → Stage → Bool → Stage × Bool
  | 0, s, moved => (s, moved)
  | fuel + 1, s, moved =>
    match s.drive i with
    | some s => driveAll i fuel s true
    | none => (s, moved)

/-- Drives all workers in turn until none can do any more at this instant. -/
def settle : Nat → Stage → Stage
  | 0, s => s
  | fuel + 1, s =>
    let (s, moved) := (List.range s.world.workers.size).foldl
      (fun (s, moved) i => let (s, m) := driveAll i fuel s false; (s, moved || m)) (s, false)
    if moved then settle fuel s else s

/-- The instant at which something is next due for worker `i`. A sleeping subscriber wakes at the deadline. -/
def dueOf (s : Stage) (i : Nat) : Option Nat :=
  let seat := s.seat i
  let answer := if seat.awaited then some seat.due else none
  match s.worker? i with
  | some (.balance (.calling _ _)) => answer
  | some (.stream .subscribing) => answer
  | some (.stream (.parked _)) => some (match answer with | some t => min t s.world.deadline | none => s.world.deadline)
  | _ => none

def sooner : Option Nat → Option Nat → Option Nat
  | some a, some b => some (min a b)
  | some a, none => some a
  | none, b => b

def nextDue (s : Stage) : Option Nat :=
  (List.range s.world.workers.size).foldl (fun t i => sooner t (s.dueOf i)) none

def moveTo (s : Stage) (t : Nat) : Stage := s.act (.pass (t - s.world.now))

end Stage

end LedgerLoad.Rehearsal
