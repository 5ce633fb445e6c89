import LedgerLoad.Config
import LedgerLoad.MockLedger.Grpc
import LedgerLoad.MockLedger.Tally

/-!
The mock ledger at work, with any number of clients on either transport.

Every query is handled by a task of its own, and every subscription is fed by one. All of them, those of several services in
one process included, share a single counter of 64 bits, which one more task reports and takes back to zero. A step is what
a task does from one wait to the next. It touches the counter at most once, so dividing it further would show the counter
nothing new. Which task goes on, how long it waits and when a client leaves is left open.
-/

set_option autoImplicit false

namespace LedgerLoad.MockLedger

/-! ### Requests -/

inductive Request where
  | get (target : String)
  | getBalance (account : String)
  | getBalances (accounts : List String)
  | streamTransactions (rateLimit : Int)
deriving DecidableEq, Repr

inductive Query where
  | rest (account : String)
  | grpc (account : String)
  | batch (accounts : List String)
deriving DecidableEq, Repr

inductive Answer where
  | rest (r : Rest.Response)
  | grpc (reply : Except GrpcStatus Balance)
  | batch (balances : List Balance)

inductive Demand where
  | query (q : Query)
  | feed (p : Protocol) (rate : Nat)
  | other
deriving DecidableEq, Repr

def Query.activity : Query → Activity
  | .rest _ => .restBalance
  | .grpc _ => .grpcBalance
  | .batch accounts => .grpcBalances accounts.length

def Query.answer (s : Surroundings) : Query → Answer
  | .rest account => .rest (Rest.balance s account)
  | .grpc account => .grpc (Grpc.getBalance s account)
  | .batch accounts => .batch (Grpc.getBalances s accounts)

def Request.demand : Request → Demand
  | .get target =>
    match Rest.route target with
    | .balance account => .query (.rest account)
    | .transactions rate => .feed .rest rate
    | _ => .other
  | .getBalance account => .query (.grpc account)
  | .getBalances accounts => .query (.batch accounts)
  | .streamTransactions rateLimit => .feed .grpc (Grpc.rateOf rateLimit)

def subscriptionActivity : Protocol → Activity
  | .rest => .restSubscription
  | .grpc => .grpcSubscription

/-! ### Tasks -/

inductive QueryPhase where
  /-- The query is counted, and its answer put off. -/
  | waiting
  | answered (a : Answer)
  | dropped

structure QueryTask where
  query : Query
  surroundings : Surroundings
  phase : QueryPhase := .waiting

inductive FeedPhase where
  | idle
  /-- A transaction was asked for, and is put off. -/
  | pacing
  | ended
  | dropped
deriving DecidableEq, Repr

structure FeedTask where
  config : Config
  surroundings : Surroundings
  interval : Span
  place : Nat := 0
  sent : List Tick := []
  phase : FeedPhase := .idle

def FeedTask.give (x : FeedTask) (t : Tick) : FeedTask :=
  { x with place := x.place + 1, sent := x.sent ++ [t], phase := .idle }

/-! ### Steps -/

structure Service where
  requests : UInt64 := 0
  /-- The reports, newest first. -/
  reports : List UInt64 := []
  queries : Array QueryTask := #[]
  feeds : Array FeedTask := #[]
  /-- Newest first. -/
  log : List Activity := []

inductive Move where
  | receive (c : Config) (s : Surroundings) (r : Request)
  /-- The answer to the `i`-th query is put off no longer. -/
  | answer (i : Nat)
  | drop (i : Nat)
  | poll (j : Nat)
  | emit (j : Nat)
  | leave (j : Nat)
  | report

def Move.query? : Move → Option Query
  | .receive _ _ r =>
    match r.demand with
    | .query q => some q
    | _ => none
  | _ => none

namespace Service

def note (v : Service) (a : Activity) : Service := { v with log := a :: v.log }

/-- Counts an activity. The largest number of 64 bits is followed by zero. -/
def count (v : Service) (a : Activity) : Service := { v.note a with requests := v.requests + 1 }

def setQuery (v : Service) (i : Nat) (x : QueryTask) : Service := { v with queries := v.queries.set! i x }

def setFeed (v : Service) (j : Nat) (x : FeedTask) : Service := { v with feeds := v.feeds.set! j x }

def receive (v : Service) (c : Config) (s : Surroundings) : Demand → Service
  | .query q => { v.count q.activity with queries := v.queries.push { query := q, surroundings := s } }
  | .feed p rate =>
    { v.note (subscriptionActivity p) with
      feeds := v.feeds.push { config := c, surroundings := s, interval := interval c rate } }
  | .other => v

def answer (v : Service) (i : Nat) (x : QueryTask) : Option Service :=
  match x.phase with
  | .waiting => some (v.setQuery i { x with phase := .answered (x.query.answer x.surroundings) })
  | _ => none

def drop (v : Service) (i : Nat) (x : QueryTask) : Option Service :=
  match x.phase with
  | .waiting => some (v.setQuery i { x with phase := .dropped })
  | _ => none

def poll (v : Service) (j : Nat) (x : FeedTask) : Option Service :=
  match x.phase with
  | .idle =>
    match tick x.config x.surroundings x.place with
    | some (.transaction _) => some (v.setFeed j { x with phase := .pacing })
    | some .failure => some ((v.note (.tick .failure)).setFeed j (x.give .failure))
    | none => some (v.setFeed j { x with phase := .ended })
  | _ => none

def emit (v : Service) (j : Nat) (x : FeedTask) : Option Service :=
  match x.phase with
  | .pacing =>
    let t := Tick.transaction (transaction x.surroundings x.place)
    some ((v.count (.tick t)).setFeed j (x.give t))
  | _ => none

def leave (v : Service) (j : Nat) (x : FeedTask) : Option Service :=
  match x.phase with
  | .idle | .pacing => some (v.setFeed j { x with phase := .dropped })
  | _ => none

def report (v : Service) : Service := { v.note .report with requests := 0, reports := v.requests :: v.reports }

def step (v : Service) : Move → Option Service
  | .receive c s r => some (v.receive c s r.demand)
  | .answer i => do v.answer i (← v.queries[i]?)
  | .drop i => do v.drop i (← v.queries[i]?)
  | .poll j => do v.poll j (← v.feeds[j]?)
  | .emit j => do v.emit j (← v.feeds[j]?)
  | .leave j => do v.leave j (← v.feeds[j]?)
  | .report => some v.report

def run (v : Service) : List Move → Option Service
  | [] => some v
  | m :: ms => do (← v.step m).run ms

end Service

end LedgerLoad.MockLedger
