import LedgerLoad.Decimal.Places
import LedgerLoad.Time.Span
import LedgerLoad.Time.Stamp

/-!
The transactions that the mock ledger invents for its subscribers.

Every subscription has a feed of its own, whatever its transport. Transactions are numbered from 0 and evenly paced. If
the service is told to fail subscriptions after some transactions, one tick of failure takes the place of the next one and
ends the feed.
-/

set_option autoImplicit false

namespace LedgerLoad.MockLedger

structure Config where
  balanceDelay : Span := Span.ofMillis 1
  eventInterval : Span := Span.ofMillis 10
  /-- How many transactions a subscription brings before it fails. -/
  failStreamAfter : Option Nat := none
deriving DecidableEq, Repr

/-- What the service takes from outside itself: random numbers, the clock, and how many comments keep a connection alive
before the `n`-th tick of a subscription, which is a matter of when it comes. -/
structure Surroundings where
  random : Nat → Nat
  clock : Nat → Stamp
  beats : Nat → Nat := fun _ => 0

def Surroundings.after (s : Surroundings) (n : Nat) : Surroundings :=
  { s with random := fun k => s.random (n + k), clock := fun k => s.clock (n + k) }

structure Transaction where
  txId : String
  sender : String
  receiver : String
  amount : Int
  kind : String
  timestamp : String
deriving DecidableEq, Repr

inductive Tick where
  | transaction (t : Transaction)
  | failure
deriving DecidableEq, Repr

def feedLost : String := "upstream feed lost"

def timeText (t : Stamp) : String := ((t.write).map String.ofList).getD ""

def between (least limit random : Nat) : Nat := least + random % (limit - least)

def accountName (random : Nat) : String := "0.0." ++ toString (between 1000 2000 random)

def transaction (s : Surroundings) (n : Nat) : Transaction where
  txId := "tx-" ++ toString n
  sender := accountName (s.random (3 * n))
  receiver := accountName (s.random (3 * n + 1))
  amount := between 1 100000 (s.random (3 * n + 2))
  kind := "transfer"
  timestamp := timeText (s.clock n)

/-- The `n`-th tick of a feed, if it gets that far. -/
def tick (c : Config) (s : Surroundings) (n : Nat) : Option Tick :=
  match c.failStreamAfter with
  | none => some (.transaction (transaction s n))
  | some limit =>
    if n < limit then some (.transaction (transaction s n)) else if n = limit then some .failure else none

def ticks (c : Config) (s : Surroundings) (count : Nat) : List Tick := (List.range count).filterMap (tick c s)

theorem ticks_succ (c : Config) (s : Surroundings) (n : Nat) : ticks c s (n + 1) = ticks c s n ++ (tick c s n).toList := by
  have one : [n].filterMap (tick c s) = (tick c s n).toList := by cases t : tick c s n <;> simp [t]
  rw [ticks, List.range_succ, List.filterMap_append, one, ticks]

/-- The time between two transactions: the reciprocal of the rate, to the nearest nanosecond. -/
def interval (c : Config) (rate : Nat) : Span :=
  if rate = 0 then c.eventInterval else Span.ofNanos (Decimal.roundDiv 1000000000 rate)

end LedgerLoad.MockLedger
