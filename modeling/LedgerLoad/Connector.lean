import LedgerLoad.Config
import LedgerLoad.Error

/-!
Opening a connection with bounded exponential backoff.

One attempt opens a pool and verifies it. A pool that fails verification is released before the next attempt, and
before an attempt the connector sleeps as long as the policy says. What an attempt comes to is told by a tape,
indexed from 0; the operations performed are kept in order.
-/

set_option autoImplicit false

namespace LedgerLoad

/-- What one attempt comes to: the pool or the error of opening, and whether that pool passes verification. -/
structure Attempt (ρ : Type) where
  opened : Except String ρ
  verified : Except String Unit := .ok ()

inductive ConnectorOp (ρ : Type) where
  | sleep (delay : Span)
  | openPool (attempt : Nat)
  | verify (attempt : Nat) (pool : ρ)
  | release (attempt : Nat) (pool : ρ)
deriving DecidableEq, Repr

namespace Connector

variable {ρ : Type}

def attempt (k : Nat) (a : Attempt ρ) : List (ConnectorOp ρ) × Except String ρ :=
  match a.opened with
  | .error e => ([.openPool k], .error e)
  | .ok pool =>
    match a.verified with
    | .ok () => ([.openPool k, .verify k pool], .ok pool)
    | .error e => ([.openPool k, .verify k pool, .release k pool], .error e)

def pause (policy : RetryPolicy) (k : Nat) : List (ConnectorOp ρ) :=
  let delay := policy.delayBefore k
  if delay.isZero then [] else [.sleep delay]

/-- The attempts from the `k`-th on, `left` of them at most, after one that failed with `last` if any did. -/
def connectFrom (policy : RetryPolicy) (tape : Nat → Attempt ρ) (k : Nat) (last : Option String) :
    Nat → List (ConnectorOp ρ) × Except ConnectionError ρ
  | 0 => ([], .error ⟨policy.maxRetries, last.getD "no connection attempt was made"⟩)
  | left + 1 =>
    match attempt k (tape k) with
    | (ops, .ok pool) => (pause policy k ++ ops, .ok pool)
    | (ops, .error e) =>
      let (later, result) := connectFrom policy tape (k + 1) (some e) left
      (pause policy k ++ ops ++ later, result)

def connect (policy : RetryPolicy) (tape : Nat → Attempt ρ) : List (ConnectorOp ρ) × Except ConnectionError ρ :=
  connectFrom policy tape 0 none policy.attempts

def timeline (cost : ConnectorOp ρ → Nat) : Nat → List (ConnectorOp ρ) → List (ConnectorOp ρ × Nat) × Nat
  | now, [] => ([], now)
  | now, op :: ops =>
    let took := match op with
      | .sleep delay => delay.nanos
      | op => cost op
    let (rest, finish) := timeline cost (now + took) ops
    ((op, now) :: rest, finish)

end Connector

end LedgerLoad
