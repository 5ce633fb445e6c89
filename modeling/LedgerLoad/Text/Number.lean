import LedgerLoad.Text.Digits

/-!
Whole numbers as they are given in queries and on the command line.
-/

set_option autoImplicit false

namespace LedgerLoad.Text

inductive NumberFault where
  | empty
  | invalidDigit
  | tooLarge
  | tooSmall
deriving DecidableEq, Repr

def NumberFault.message : NumberFault → String
  | .empty => "cannot parse integer from empty string"
  | .invalidDigit => "invalid digit found in string"
  | .tooLarge => "number too large to fit in target type"
  | .tooSmall => "number too small to fit in target type"

/-- Takes up digits from left to right; the first fault met is the one reported. -/
def takeDigits (most : Nat) : Nat → List Char → Except NumberFault Nat
  | n, [] => .ok n
  | n, c :: r =>
    if isDigit c then
      let m := n * 10 + digitValue c
      if m ≤ most then takeDigits most m r else .error .tooLarge
    else .error .invalidDigit

/-- A number from zero to `most`, in decimal digits, with a plus sign in front of them if need be. -/
def parseNumber (most : Nat) (s : List Char) : Except NumberFault Nat :=
  match s with
  | [] => .error .empty
  | ['+'] => .error .invalidDigit
  | '+' :: r => takeDigits most 0 r
  | s => takeDigits most 0 s

def parseInteger (s : List Char) : Except NumberFault Int :=
  match s with
  | ['-'] => .error .invalidDigit
  | '-' :: r =>
    match takeDigits 0x8000000000000000 0 r with
    | .ok n => .ok (-n)
    | .error .tooLarge => .error .tooSmall
    | .error fault => .error fault
  | s => (parseNumber 0x7FFFFFFFFFFFFFFF s).map Int.ofNat

end LedgerLoad.Text
