import LedgerLoad.MockLedger.Service
import LedgerLoad.Rehearsal.Script
import LedgerLoad.Target.Client

/-!
Runs against the mock ledger in virtual time: its answers as a script, on either transport.

A balance query takes the delay of the service, and the transactions of a subscription come at its interval, in whole
milliseconds.
-/

set_option autoImplicit false

namespace LedgerLoad.Rehearsal

open MockLedger (Config Surroundings)

def wholeMillis (s : Span) : Nat := (s.nanos + 999999) / 1000000 * 1000000

def restResponse (c : Config) (s : Surroundings) (count : Nat) (r : RestRequest) : RestResponse :=
  let path := String.ofList (r.url.path.text ++ r.url.queryText)
  match MockLedger.Rest.route path with
  | .transactions _ =>
    { contentType := some "text/event-stream", body := MockLedger.Rest.stream s.beats (MockLedger.ticks c s count) }
  | route =>
    let a := MockLedger.Rest.respond c s count route
    { status := a.status, contentType := a.contentType, body := [a.body.toUTF8.toList] }

/-- Whether a request for a balance gets as far as the account. -/
def reachesAccount (r : RestRequest) : Bool :=
  match MockLedger.Rest.route (String.ofList (r.url.path.text ++ r.url.queryText)) with
  | .balance _ => true
  | _ => false

def restBalance (c : Config) (s : Surroundings) (t : RestTarget) (account : String) : Except TargetError Unit :=
  RestTarget.balanceResult (.ok (restResponse c s 0 (t.balanceRequest account)))

def grpcBalance (s : Surroundings) (account : String) : Except TargetError Unit :=
  GrpcTarget.balanceResult ((MockLedger.Grpc.getBalance s account).map fun _ => ())

def restItems (c : Config) (s : Surroundings) (t : RestTarget) (rate count : Nat) :
    Except TargetError (Option (List EventStream.Item)) :=
  RestTarget.streamResult (.ok (restResponse c s count (t.streamRequest rate)))

def grpcItems (c : Config) (s : Surroundings) (count : Nat) : Except TargetError (List EventStream.Item) :=
  GrpcTarget.streamResult (.ok (MockLedger.Grpc.stream (MockLedger.ticks c s count)))

def grpcRate (rate : Nat) : Nat :=
  match GrpcTarget.streamRequest rate with
  | .streamTransactions _ limit _ => MockLedger.Grpc.rateOf limit
  | _ => 0

def errorOf {α : Type} : Except TargetError α → Option TargetError
  | .ok _ => none
  | .error e => some e

/-- The `n`-th offer of a subscription at a rate. The failure comes without a wait. -/
def offer (c : Config) (s : Surroundings) (lost : TargetError) (rate n : Nat) : Offer :=
  match MockLedger.tick c s n with
  | none => .close
  | some (.transaction _) => .cue { wait := wholeMillis (MockLedger.interval c rate) }
  | some .failure => .cue { error := some lost }

def ledgerScript (c : Config) (s : Surroundings) : Client → Script
  | .rest t =>
    { call _ account :=
        { wait := if reachesAccount (t.balanceRequest account) then wholeMillis c.balanceDelay else 0
          error := errorOf (restBalance c s t account) }
      feed _ rate :=
        { subscribe := { error := errorOf (restItems c s t rate 0) }
          offer := offer c s (.stream MockLedger.feedLost) rate } }
  | .grpc _ =>
    { call _ account := { wait := wholeMillis c.balanceDelay, error := errorOf (grpcBalance s account) }
      feed _ rate := { offer := offer c s (.grpc ⟨.unavailable, MockLedger.feedLost⟩) (grpcRate rate) } }

def turns (j : Nat) : MockLedger.Tick → List MockLedger.Move
  | .transaction _ => [.poll j, .emit j]
  | .failure => [.poll j]

/-- What happens in the service in one second: paths that are asked for, a number of single balance queries over gRPC, and the
first events of a REST subscription, if there is one. The second ends with a report. -/
def second (c : Config) (s : Surroundings) (paths : List String) (grpcQueries : Nat) (events : Option Nat) :
    List MockLedger.Activity :=
  let asked : List MockLedger.Move := paths.map (fun path => .receive c s (.get path)) ++
    List.replicate grpcQueries (.receive c s (.getBalance ""))
  let read (j : Nat) : List MockLedger.Move := match events with
    | some n => .receive c s (.get "/api/v1/transactions/stream") :: (MockLedger.ticks c s n).flatMap (turns j)
    | none => []
  let ended : Option MockLedger.Service := do
    let v ← MockLedger.Service.run {} asked
    v.run (read v.feeds.size ++ [.report])
  (ended.map fun v => v.log.reverse).getD []

end LedgerLoad.Rehearsal
