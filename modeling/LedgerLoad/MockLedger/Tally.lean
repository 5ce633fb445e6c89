import LedgerLoad.MockLedger.Feed

/-!
What the mock ledger counts: the requests since its last report, and its own counters.

Reports are drawn once a second by a task of their own; drawing one takes the count away in a single step.
-/

set_option autoImplicit false

namespace LedgerLoad.MockLedger

inductive Activity where
  | restBalance
  | grpcBalance
  /-- A batch counts once, whatever its size. -/
  | grpcBalances (size : Nat)
  | restSubscription
  | grpcSubscription
  | tick (t : Tick)
  | report
deriving DecidableEq, Repr

structure Tally where
  requests : Nat := 0
  /-- The reports, newest first. -/
  reported : List Nat := []
  balance : Nat := 0
  grpcBalance : Nat := 0
  subscriptions : Nat := 0
  grpcSubscriptions : Nat := 0
deriving DecidableEq, Repr

namespace Tally

def note (t : Tally) : Activity → Tally
  | .restBalance => { t with balance := t.balance + 1, requests := t.requests + 1 }
  | .grpcBalance => { t with grpcBalance := t.grpcBalance + 1, requests := t.requests + 1 }
  | .grpcBalances _ => { t with requests := t.requests + 1 }
  | .restSubscription => { t with subscriptions := t.subscriptions + 1 }
  | .grpcSubscription => { t with grpcSubscriptions := t.grpcSubscriptions + 1 }
  | .tick (.transaction _) => { t with requests := t.requests + 1 }
  | .tick .failure => t
  | .report => { t with reported := t.requests :: t.reported, requests := 0 }

def noteAll (t : Tally) (as : List Activity) : Tally := as.foldl note t

end Tally

end LedgerLoad.MockLedger
