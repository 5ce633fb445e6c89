import LedgerLoad.Error
import LedgerLoad.Sample

/-!
The loop bodies of workers, as machines that take one small step at a time.

A worker asks its workload for the next unit of work again and again. A balance workload looks at the stop flag, then
at the clock, then calls the target once, and the call is awaited to its end. A stream workload subscribes once and
then waits for whichever comes first: a stop, the deadline, or an item of the subscription; of those that are there
at one instant a stop goes before the deadline and the deadline before the item. Every look at the flag, at the clock
and at the target is a step of its own, so that anything may happen between two of them.
-/

set_option autoImplicit false

namespace LedgerLoad

/-- Why a worker stopped producing samples: the time was up, a stop was requested, the server ended the subscription,
or the subscription failed and one failed sample tells so. -/
inductive Finish where
  | elapsed
  | requestedCancellation
  | exhausted
  | unexpectedStreamFailure
deriving DecidableEq, Repr

def Finish.name : Finish → String
  | .elapsed => "Elapsed"
  | .requestedCancellation => "RequestedCancellation"
  | .exhausted => "Exhausted"
  | .unexpectedStreamFailure => "UnexpectedStreamFailure"

/-- What a worker can see for itself. -/
structure View where
  stopped : Bool
  now : Nat
  deadline : Nat
deriving DecidableEq, Repr

def View.stamp (v : View) : Stamp := { seconds := (v.now / 1000000000 : Nat), nanos := v.now % 1000000000 }

/-- What a step of a workload comes to: it goes on, or the unit of work it was asked for is done and the workload
stands where the next one begins. -/
inductive Progress (φ : Type) where
  | going (phase : φ)
  | sample (s : Sample) (phase : φ)
  | finished (why : Finish) (phase : φ)
deriving Repr

/-! ### Balance queries -/

inductive BalancePhase where
  | start
  | unstopped
  /-- The deadline is ahead; an account is drawn and the target is called. -/
  | drawing
  | calling (account : String) (since : Nat)
deriving DecidableEq, Repr

namespace BalancePhase

def advance (v : View) : BalancePhase → Option (Progress BalancePhase)
  | .start => some (if v.stopped then .finished .requestedCancellation .start else .going .unstopped)
  | .unstopped => some (if v.now ≥ v.deadline then .finished .elapsed .start else .going .drawing)
  | _ => none

def answer (v : View) (reply : Except TargetError Unit) : BalancePhase → Option (Progress BalancePhase)
  | .calling _ since =>
    let latency := Span.between since v.now
    match reply with
    | .ok () => some (.sample (.succeeded latency v.stamp) .start)
    | .error e => some (.sample (.failed latency e.message v.stamp) .start)
  | _ => none

end BalancePhase

/-! ### Subscriptions -/

inductive StreamItem where
  | event
  | error (e : TargetError)
  | close
deriving DecidableEq, Repr

inductive StreamPhase where
  | start
  | unstopped
  | ready
  | subscribing
  | looking (last : Option Nat)
  /-- No stop was requested; the clock is looked at. -/
  | lookingClock (last : Option Nat)
  /-- The deadline is ahead; the subscription is looked at. -/
  | lookingItem (last : Option Nat)
  /-- Nothing was there; the worker sleeps until it is woken. -/
  | parked (last : Option Nat)
  /-- An event came; its instant is noted. -/
  | received (last : Option Nat)
  /-- The target reported an error; the stop flag tells what to make of it. -/
  | failing (e : TargetError)
  | done (why : Finish)
deriving DecidableEq, Repr

namespace StreamPhase

def finish (why : Finish) : Option (Progress StreamPhase) := some (.finished why (.done why))

/-- A step for which the worker needs nobody else. An error after a stop is what the stop leads to. -/
def advance (v : View) : StreamPhase → Option (Progress StreamPhase)
  | .start => if v.stopped then finish .requestedCancellation else some (.going .unstopped)
  | .unstopped => if v.now ≥ v.deadline then finish .elapsed else some (.going .ready)
  | .looking last => if v.stopped then finish .requestedCancellation else some (.going (.lookingClock last))
  | .lookingClock last => if v.now ≥ v.deadline then finish .elapsed else some (.going (.lookingItem last))
  | .received last =>
    let latency := match last with
      | some since => Span.between since v.now
      | none => Span.zero
    some (.sample (.succeeded latency v.stamp) (.looking (some v.now)))
  | .failing e =>
    if v.stopped then finish .requestedCancellation
    else some (.sample (.failed Span.zero e.message v.stamp) (.done .unexpectedStreamFailure))
  | .done why => finish why
  | _ => none

def subscribe : StreamPhase → Option StreamPhase
  | .ready => some .subscribing
  | _ => none

def answer (reply : Except TargetError Unit) : StreamPhase → Option StreamPhase
  | .subscribing =>
    match reply with
    | .ok () => some (.looking none)
    | .error e => some (.failing e)
  | _ => none

def look (item : Option StreamItem) : StreamPhase → Option (Progress StreamPhase)
  | .lookingItem last =>
    match item with
    | none => some (.going (.parked last))
    | some .event => some (.going (.received last))
    | some (.error e) => some (.going (.failing e))
    | some .close => finish .exhausted
  | _ => none

def wake : StreamPhase → Option StreamPhase
  | .parked last => some (.looking last)
  | _ => none

end StreamPhase

end LedgerLoad
