import LedgerLoad.Time.Span
import LedgerLoad.Text.Blank

/-!
What a run is asked to do: the request pattern, the transport, how many workers for how long, and how the
results database is reached.
-/

set_option autoImplicit false

namespace LedgerLoad

inductive Scenario where
  | balance
  | stream
deriving DecidableEq, Repr, Inhabited

inductive Protocol where
  | grpc
  | rest
deriving DecidableEq, Repr, Inhabited

structure UnknownName where
  kind : String
  value : String
deriving DecidableEq, Repr

def UnknownName.message (u : UnknownName) : String := "unknown " ++ u.kind ++ " \"" ++ u.value ++ "\""

def Scenario.name : Scenario → String
  | .balance => "balance"
  | .stream => "stream"

def Protocol.name : Protocol → String
  | .grpc => "grpc"
  | .rest => "rest"

def Scenario.named : List (String × Scenario) := [("balance", .balance), ("stream", .stream)]

def Protocol.named : List (String × Protocol) := [("grpc", .grpc), ("rest", .rest)]

def Scenario.parse (text : String) : Except UnknownName Scenario :=
  match Scenario.named.lookup (String.ofList (Text.normalize text.toList)) with
  | some s => .ok s
  | none => .error ⟨"scenario", text⟩

def Protocol.parse (text : String) : Except UnknownName Protocol :=
  match Protocol.named.lookup (String.ofList (Text.normalize text.toList)) with
  | some p => .ok p
  | none => .error ⟨"protocol", text⟩

/-- A run has at least one worker. The rate is what streaming workers ask the server for, in events per
second, zero for no limit. -/
structure WorkloadConfig where
  scenario : Scenario
  concurrency : Nat
  duration : Span
  rate : Nat := 0
deriving DecidableEq, Repr

/-- The rate worth recording: only streaming runs with a limit have one. -/
def WorkloadConfig.rateLimit (c : WorkloadConfig) : Option Nat :=
  match c.scenario with
  | .stream => if c.rate > 0 then some c.rate else none
  | .balance => none

/-- Bounded exponential backoff: one attempt and so many retries, the wait doubling from the interval. -/
structure RetryPolicy where
  maxRetries : Nat := 3
  interval : Span := Span.ofMillis 100
deriving DecidableEq, Repr

namespace RetryPolicy

abbrev counterMax : Nat := 0xFFFFFFFF

def attempts (p : RetryPolicy) : Nat := min (p.maxRetries + 1) counterMax

/-- The wait before an attempt, counted from 0. The factor is a power of two that stays at the largest
32-bit number, and the product stays at the longest span. -/
def delayBefore (p : RetryPolicy) : Nat → Span
  | 0 => Span.zero
  | n + 1 => p.interval.scale (if n < 32 then Nat.pow 2 n else counterMax)

end RetryPolicy

structure DbConfig where
  host : String := "localhost"
  port : Nat := 5432
  user : String := "benchmark"
  password : String := "benchmark_pass"
  database : String := "grpc_benchmark"
  minConnections : Nat := 5
  maxConnections : Nat := 50
  maxLifetime : Span := Span.ofSecs 3600
  idleTimeout : Span := Span.ofSecs 1800
  connectTimeout : Span := Span.ofSecs 10
  retry : RetryPolicy := {}
deriving DecidableEq, Repr

def DbConfig.label (c : DbConfig) : String := c.database ++ "@" ++ c.host ++ ":" ++ toString c.port

end LedgerLoad
