/-!
Doubles as exact numbers: the sign, and a whole number times a power of two.
-/

set_option autoImplicit false

namespace LedgerLoad.Decimal

/-- The exact value of a double. A finite one is `mantissa * 2 ^ (shift - 1074)`, with its sign apart. -/
inductive Exact where
  | nan
  | infinite (negative : Bool)
  | finite (negative : Bool) (mantissa shift : Nat)
deriving DecidableEq, Repr

/-- The leading bit of a mantissa, 2^52. The bit pattern leaves it out, and the doubles next to zero lack it. -/
abbrev leadingBit : Nat := 0x10000000000000

def exact (x : Float) : Exact :=
  let bits := x.toBits.toNat
  let negative := bits / 0x8000000000000000 == 1
  let power := bits / leadingBit % 2048
  let fraction := bits % leadingBit
  if power = 2047 then (if fraction = 0 then .infinite negative else .nan)
  else if power = 0 then .finite negative fraction 0
  else .finite negative (leadingBit + fraction) (power - 1)

def ratio (mantissa shift : Nat) : Nat × Nat :=
  if shift ≥ 1074 then (mantissa * Nat.pow 2 (shift - 1074), 1) else (mantissa, Nat.pow 2 (1074 - shift))

def wholePart (x : Float) : Option Nat :=
  match exact x with
  | .finite negative m e => if negative && m != 0 then none else some ((ratio m e).1 / (ratio m e).2)
  | _ => none

/-- A natural number as a double, rounded to nearest, ties to even. -/
def ofNat (n : Nat) : Float := if n < 0x10000000000000000 then n.toUInt64.toFloat else Float.ofScientific n false 0

end LedgerLoad.Decimal
