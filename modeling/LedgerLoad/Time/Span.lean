/-!
Lengths of time in whole nanoseconds. The whole seconds of a span fit in 64 bits, and arithmetic that
would leave that range stays at its end.
-/

set_option autoImplicit false

namespace LedgerLoad

/-- Spans lie strictly below this many nanoseconds: 2^64 seconds. -/
abbrev Span.limit : Nat := 18446744073709551616000000000

structure Span where
  nanos : Nat
  nanos_lt : nanos < Span.limit
deriving DecidableEq, Repr

namespace Span

/-- The span of so many nanoseconds, the longest one if there is none so long. -/
def ofNanos (n : Nat) : Span :=
  ⟨min n (limit - 1), by have : limit = 18446744073709551616000000000 := rfl; omega⟩

def ofMillis (n : Nat) : Span := ofNanos (n * 1000000)

def ofSecs (n : Nat) : Span := ofNanos (n * 1000000000)

def ofNanos? (n : Nat) : Option Span :=
  if h : n < limit then some ⟨n, h⟩ else none

def zero : Span := ofNanos 0

def longest : Span := ofNanos (limit - 1)

instance : Inhabited Span := ⟨zero⟩

instance : LE Span := ⟨fun a b => a.nanos ≤ b.nanos⟩

instance : DecidableLE Span := fun a b => inferInstanceAs (Decidable (a.nanos ≤ b.nanos))

def secs (s : Span) : Nat := s.nanos / 1000000000

def subsec (s : Span) : Nat := s.nanos % 1000000000

def isZero (s : Span) : Bool := s.nanos == 0

def scale (s : Span) (k : Nat) : Span := ofNanos (s.nanos * k)

/-- Seconds as a double: whole seconds and fraction are converted apart and added. -/
def toSeconds (s : Span) : Float :=
  s.secs.toUInt64.toFloat + s.subsec.toUInt64.toFloat / 1e9

def toMillis (s : Span) : Float := s.toSeconds * 1000

theorem ofNanos_nanos (n : Nat) : (ofNanos n).nanos = min n (limit - 1) := rfl

theorem ofNanos_of_lt {n : Nat} (h : n < limit) : (ofNanos n).nanos = n := by
  have e : limit = 18446744073709551616000000000 := rfl
  simp only [ofNanos]; omega

@[simp] theorem zero_nanos : zero.nanos = 0 := rfl

theorem ext_nanos {a b : Span} (h : a.nanos = b.nanos) : a = b := by
  cases a; cases b; cases h; rfl

end Span

def Span.between (start finish : Nat) : Span := Span.ofNanos (finish - start)

end LedgerLoad
