import LedgerLoad.Decimal.Binary
import LedgerLoad.Text.Digits

/-!
The shortest decimal that reads back as the same double.

The reals that round to a double form an interval around its exact value, whose ends belong to it if the
double's mantissa is even. Of the decimals in the interval one with the fewest digits is taken, and of those
the nearest to the exact value; an exact tie goes to the even last digit.
-/

set_option autoImplicit false

namespace LedgerLoad.Decimal

structure Scaled where
  digits : Nat
  exponent : Int
deriving DecidableEq, Repr

structure Rounding where
  low : Nat
  value : Nat
  high : Nat
  den : Nat
  closed : Bool
deriving Repr

/-- The interval of `mantissa * 2 ^ (shift - 1074)`. Just above a power of two the spacing is halved below. -/
def rounding (mantissa shift : Nat) : Rounding :=
  let narrow := mantissa = leadingBit ∧ 0 < shift
  let up := if shift ≥ 1074 then Nat.pow 2 (shift - 1074) else 1
  let den := if shift ≥ 1074 then 4 else 4 * Nat.pow 2 (1074 - shift)
  { low := (4 * mantissa - (if narrow then 1 else 2)) * up
    value := 4 * mantissa * up
    high := (4 * mantissa + 2) * up
    den := den
    closed := mantissa % 2 = 0 }

def inUnits (num den : Nat) (e : Int) : Nat × Nat :=
  if e ≥ 0 then (num, den * Nat.pow 10 e.toNat) else (num * Nat.pow 10 (-e).toNat, den)

def Rounding.contains (r : Rounding) (n : Nat) (e : Int) : Bool :=
  let low := inUnits r.low r.den e
  let high := inUnits r.high r.den e
  if r.closed then low.1 ≤ n * low.2 && n * high.2 ≤ high.1
  else low.1 < n * low.2 && n * high.2 < high.1

/-- The best decimal of the grid `10 ^ e`, if any decimal of that grid rounds to the double. One of the two
neighbours of the exact value is in the interval if any point of the grid is. -/
def Rounding.onGrid (r : Rounding) (e : Int) : Option Nat :=
  let v := inUnits r.value r.den e
  let below := v.1 / v.2
  let gap := v.1 % v.2
  match r.contains below e, r.contains (below + 1) e with
  | true, true =>
    if 2 * gap < v.2 then some below
    else if v.2 < 2 * gap then some (below + 1)
    else some (below + below % 2)
  | true, false => some below
  | false, true => some (below + 1)
  | false, false => none

def magnitude (num den : Nat) : Nat → Int → Int
  | 0, k => k
  | fuel + 1, k =>
    let v := inUnits num den (k - 1)
    if v.2 ≤ v.1 then k else magnitude num den fuel (k - 1)

/-- Tries grids from coarse to fine; seventeen digits always suffice. -/
def Rounding.search (r : Rounding) (e : Int) : Nat → Scaled
  | 0 => ⟨0, 0⟩
  | fuel + 1 =>
    match r.onGrid e with
    | some n => ⟨n, e⟩
    | none => r.search (e - 1) fuel

def Scaled.carried (s : Scaled) : Scaled :=
  if s.digits % 10 = 0 then ⟨s.digits / 10, s.exponent + 1⟩ else s

def shortest (mantissa shift : Nat) : Scaled :=
  let r := rounding mantissa shift
  let bits : Int := Nat.log2 mantissa + shift - 1074
  let k := magnitude r.value r.den 8 (bits * 30103 / 100000 + 2)
  (r.search (k - 1) 20).carried

structure Layout where
  plainFrom : Int
  plainTo : Int
deriving Repr

def Scaled.plain (s : Scaled) : List Char :=
  let ds := Text.decimal s.digits
  if s.exponent ≥ 0 then ds ++ List.replicate s.exponent.toNat '0' ++ ['.', '0']
  else
    let after := (-s.exponent).toNat
    if after < ds.length then ds.take (ds.length - after) ++ '.' :: ds.drop (ds.length - after)
    else '0' :: '.' :: List.replicate (after - ds.length) '0' ++ ds

def Scaled.scientific (s : Scaled) : List Char :=
  let ds := Text.decimal s.digits
  let power := s.exponent + (ds.length - 1 : Nat)
  let tail := if ds.length ≤ 1 then [] else '.' :: ds.drop 1
  ds.take 1 ++ tail ++ 'e' :: (if power < 0 then '-' else '+') :: Text.decimal power.natAbs

def Scaled.write (l : Layout) (s : Scaled) : List Char :=
  let power := s.exponent + ((Text.decimal s.digits).length - 1 : Nat)
  if l.plainFrom ≤ power ∧ power ≤ l.plainTo then s.plain else s.scientific

end LedgerLoad.Decimal
