import LedgerLoad.EventStream.Frame
import LedgerLoad.Json.Codec
import LedgerLoad.MockLedger.Feed
import LedgerLoad.Text.Fields
import LedgerLoad.Text.Number
import LedgerLoad.Text.Percent

/-!
The REST side of the mock ledger: its routes, the balance of an account, and subscriptions as event streams.
-/

set_option autoImplicit false

namespace LedgerLoad.MockLedger

def isMissing (account : String) : Bool := account.toList.take 7 == "missing".toList

def notFoundText (account : String) : String := "account " ++ account ++ " not found"

structure Balance where
  account : String
  amount : Nat
  timestamp : String
deriving DecidableEq, Repr

def balanceOf (s : Surroundings) (account : String) : Balance :=
  ⟨account, between 0 1000000000 (s.random 0), timeText (s.clock 0)⟩

def Balance.json (b : Balance) : Json :=
  .record [("account_id", .text b.account), ("balance", .int b.amount), ("timestamp", .text b.timestamp)]

def Transaction.codec : Json.Codec Transaction :=
  Json.Fields.codec
    (.cons ⟨"tx_id", .text, none⟩ <|
     .cons ⟨"from", .text, none⟩ <|
     .cons ⟨"to", .text, none⟩ <|
     .cons ⟨"amount", .int, none⟩ <|
     .cons ⟨"type", .text, none⟩ <|
     .cons ⟨"timestamp", .text, none⟩ .nil)
    (fun (txId, sender, receiver, amount, kind, timestamp, ()) => ⟨txId, sender, receiver, amount, kind, timestamp⟩)
    (fun t => (t.txId, t.sender, t.receiver, t.amount, t.kind, t.timestamp, ()))

namespace Rest

inductive Route where
  | health
  | balance (account : String)
  | transactions (rate : Nat)
  | badAccount
  | badQuery (why : String)
  | unknown
deriving DecidableEq, Repr

structure Response where
  status : Nat
  contentType : Option String := none
  body : String
deriving DecidableEq, Repr

/-- A name or value in a query, where a plus sign stands for a blank. -/
def formText (s : List Char) : String :=
  String.ofList (Text.Utf8.decodeLossy (Text.Percent.decode (s.map fun c => if c = '+' then ' ' else c)))

def formPairs (query : List Char) : List (String × String) :=
  ((Text.splitOn (· == '&') query).filter (!·.isEmpty)).map fun part =>
    let (name, value) := part.span (· != '=')
    (formText name, formText (value.drop 1))

abbrev rateLimit : Nat := 0xFFFFFFFF

/-- The rate in a query, zero if there is none. The first fault from left to right is reported. -/
def rateOf : Option Nat → List (String × String) → Except String Nat
  | seen, [] => .ok (seen.getD 0)
  | seen, (name, value) :: rest =>
    if name = "rate" then
      if seen.isSome then .error "duplicate field `rate`"
      else match Text.parseNumber rateLimit value.toList with
        | .ok n => rateOf (some n) rest
        | .error e => .error e.message
    else rateOf seen rest

/-- Paths match exactly, and the account, which is decoded once, is a segment with something in it. -/
def route (target : String) : Route :=
  let (path, rest) := (target.toList.takeWhile (· != '#')).span (· != '?')
  match Text.splitOn (· == '/') path with
  | [[], ['h', 'e', 'a', 'l', 't', 'h']] => .health
  | [[], api, v1, kind, account, last] =>
    if api = "api".toList ∧ v1 = "v1".toList ∧ kind = "accounts".toList ∧ account ≠ [] ∧ last = "balance".toList then
      match Text.Utf8.decode? (Text.Percent.decode account) with
      | some name => .balance (String.ofList name)
      | none => .badAccount
    else .unknown
  | [[], api, v1, kind, last] =>
    if api = "api".toList ∧ v1 = "v1".toList ∧ kind = "transactions".toList ∧ last = "stream".toList then
      match rateOf none (formPairs (rest.drop 1)) with
      | .ok rate => .transactions rate
      | .error why => .badQuery why
    else .unknown
  | _ => .unknown

def balance (s : Surroundings) (account : String) : Response :=
  if isMissing account then
    ⟨404, some "application/json", (Json.record [("error", .text (notFoundText account))]).compact⟩
  else ⟨200, some "application/json", (balanceOf s account).json.compact⟩

/-- A tick as a frame of an event stream. A transaction that has no written form is an error. -/
def frame : Tick → EventStream.Frame
  | .transaction t =>
    match Transaction.codec.write t with
    | some v => ⟨"transaction".toList, v.compact.toList⟩
    | none => ⟨"error".toList, []⟩
  | .failure => ⟨"error".toList, feedLost.toList⟩

def keepAlive : List Char := EventStream.writeField "" [] ++ ['\n']

/-- The frames of some ticks as they go out, with comments before each of them and behind the last. -/
def pieces (beats : Nat → Nat) : List Tick → List (List Char)
  | [] => List.replicate (beats 0) keepAlive
  | t :: ts => List.replicate (beats 0) keepAlive ++ (frame t).write :: pieces (fun n => beats (n + 1)) ts

/-- The event stream of some ticks, a chunk for each piece. -/
def stream (beats : Nat → Nat) (ticks : List Tick) : List (List UInt8) := (pieces beats ticks).map Text.Utf8.encode

def plain : Option String := some "text/plain; charset=utf-8"

/-- The answers to all requests but those for a stream that does not end, of which the first ticks are given. -/
def respond (c : Config) (s : Surroundings) (count : Nat) : Route → Response
  | .health => ⟨200, plain, "OK"⟩
  | .balance account => balance s account
  | .transactions _ => ⟨200, some "text/event-stream", String.ofList (pieces s.beats (ticks c s count)).flatten⟩
  | .badAccount => ⟨400, plain, "Invalid URL: Invalid UTF-8 in `account_id`"⟩
  | .badQuery why => ⟨400, plain, "Failed to deserialize query string: " ++ why⟩
  | .unknown => ⟨404, none, ""⟩

end Rest

end LedgerLoad.MockLedger
