import LedgerLoad.Load.Workload

/-!
A stream workload by itself, asked for one unit of work after another for as long as anybody likes.

It moves by single turns. Which turn comes next is left open, as is what the target answers and when: time may pass and
a stop may be requested between any two looks of the workload. All that it looks at, asks for and is given is kept on
record, each entry with what could be seen at that moment.
-/

set_option autoImplicit false

namespace LedgerLoad

inductive WorkUnit where
  | sample (s : Sample)
  | finished (why : Finish)
deriving DecidableEq, Repr

inductive Sight where
  | flag
  | clock
  | asked (rate : Nat)
  | opened
  | refused (e : TargetError)
  | handed (item : StreamItem)
  | nothing
  /-- The stop flag once more, to tell what to make of an error. -/
  | judged (e : TargetError)
deriving DecidableEq, Repr

structure Seen where
  view : View
  sight : Sight
deriving DecidableEq, Repr

structure StreamWorkload where
  rate : Nat
  deadline : Nat
  now : Nat := 0
  stopped : Bool := false
  phase : StreamPhase := .start
  /-- Whether a unit of work is asked for and not yet given. -/
  busy : Bool := false
  /-- Newest first. -/
  record : List Seen := []
  /-- The units of work given so far, newest first. -/
  given : List WorkUnit := []
deriving DecidableEq, Repr

inductive Turn where
  | pass (nanos : Nat)
  | signal
  | next
  | work
  | subscribe
  | answer (reply : Except TargetError Unit)
  | look (item : Option StreamItem)
  | wake

/-- What a phase looks at in a step for which the workload needs nobody else. -/
def StreamPhase.glance : StreamPhase → Option Sight
  | .start | .looking _ => some .flag
  | .unstopped | .lookingClock _ => some .clock
  | .failing e => some (.judged e)
  | _ => none

namespace StreamWorkload

def view (s : StreamWorkload) : View := ⟨s.stopped, s.now, s.deadline⟩

def results (s : StreamWorkload) : List WorkUnit := s.given.reverse

def note (s : StreamWorkload) (x : Sight) : StreamWorkload := { s with record := ⟨s.view, x⟩ :: s.record }

def settle (s : StreamWorkload) : Progress StreamPhase → StreamWorkload
  | .going p => { s with phase := p }
  | .sample x p => { s with phase := p, busy := false, given := .sample x :: s.given }
  | .finished why p => { s with phase := p, busy := false, given := .finished why :: s.given }

def proceed (s : StreamWorkload) : Turn → Option StreamWorkload
  | .work => (s.phase.advance s.view).map (s.phase.glance.elim s s.note).settle
  | .subscribe => s.phase.subscribe.map fun p => { s.note (.asked s.rate) with phase := p }
  | .answer reply =>
    let told := match reply with
      | .ok () => Sight.opened
      | .error e => .refused e
    (s.phase.answer reply).map fun p => { s.note told with phase := p }
  | .look item => (s.phase.look item).map (s.note (item.elim .nothing .handed)).settle
  | .wake => s.phase.wake.map fun p => { s with phase := p }
  | _ => none

def step (s : StreamWorkload) : Turn → Option StreamWorkload
  | .pass nanos => some { s with now := s.now + nanos }
  | .signal => some { s with stopped := true }
  | .next => if s.busy then none else some { s with busy := true }
  | t => if s.busy then s.proceed t else none

def run (s : StreamWorkload) : List Turn → Option StreamWorkload
  | [] => some s
  | t :: ts => do (← s.step t).run ts

def fresh (rate deadline now : Nat) (stopped : Bool) : StreamWorkload :=
  { rate := rate, deadline := deadline, now := now, stopped := stopped }

end StreamWorkload

end LedgerLoad
