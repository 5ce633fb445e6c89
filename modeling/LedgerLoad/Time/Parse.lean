import LedgerLoad.Time.Span
import LedgerLoad.Text.Blank
import LedgerLoad.Text.Number

/-!
Durations as they are given on the command line: a whole number with an optional unit `s`, `m` or `h`,
seconds if there is none.
-/

set_option autoImplicit false

namespace LedgerLoad

/-- Both carry the text as it was given. -/
inductive DurationError where
  | invalid (text : String)
  | overflow (text : String)
deriving DecidableEq, Repr

def DurationError.message : DurationError → String
  | .invalid text => "Invalid duration: \"" ++ text ++ "\" (use e.g. 10, 10s, 1m, 2h)"
  | .overflow text => "Duration \"" ++ text ++ "\" is too large"

namespace Span

def unitSecs? : List Char → Option Nat
  | [] => some 1
  | ['s'] => some 1
  | ['m'] => some 60
  | ['h'] => some 3600
  | _ => none

abbrev maxSecs : Nat := 0xFFFFFFFFFFFFFFFF

/-- A bad unit is reported before a number that is too large, which it may be by itself or only in its unit. -/
def parse (text : String) : Except DurationError Span :=
  let norm := Text.normalize text.toList
  let digits := norm.takeWhile Text.isDigit
  let unit := norm.dropWhile Text.isDigit
  if digits.isEmpty then .error (.invalid text)
  else match unitSecs? unit with
    | none => .error (.invalid text)
    | some k =>
      match Text.parseNumber maxSecs digits with
      | .error _ => .error (.overflow text)
      | .ok count => if count * k ≤ maxSecs then .ok (ofSecs (count * k)) else .error (.overflow text)

end Span

end LedgerLoad
