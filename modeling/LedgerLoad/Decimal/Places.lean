import LedgerLoad.Decimal.Binary
import LedgerLoad.Text.Digits

/-!
Doubles with a fixed number of places after the point, rounded from the exact value.
-/

set_option autoImplicit false

namespace LedgerLoad.Decimal

/-- A quotient rounded to the nearest whole number, a half to the even neighbour. -/
def roundDiv (num den : Nat) : Nat :=
  let q := num / den
  let r := num % den
  if 2 * r < den then q
  else if den < 2 * r then q + 1
  else q + q % 2

def places (digits num den : Nat) : List Char :=
  let scaled := roundDiv (num * Nat.pow 10 digits) den
  let whole := Text.decimal (scaled / Nat.pow 10 digits)
  if digits = 0 then whole else whole ++ '.' :: Text.padded digits scaled

def fixed (digits : Nat) (x : Float) : String :=
  match exact x with
  | .nan => "NaN"
  | .infinite negative => if negative then "-inf" else "inf"
  | .finite negative m e =>
    let text := places digits (ratio m e).1 (ratio m e).2
    String.ofList (if negative then '-' :: text else text)

end LedgerLoad.Decimal
