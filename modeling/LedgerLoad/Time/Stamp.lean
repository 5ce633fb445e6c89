import LedgerLoad.Text.Digits

/-!
Points in time with an offset from UTC, and their RFC 3339 text.
-/

set_option autoImplicit false

namespace LedgerLoad

/-- Seconds from the start of 1970 in UTC, nanoseconds within the second, and the offset in minutes of the place
where the time was noted. -/
structure Stamp where
  seconds : Int := 0
  nanos : Nat := 0
  offset : Int := 0
deriving DecidableEq, Repr, Inhabited

structure Day where
  year : Int
  month : Nat
  day : Nat
deriving DecidableEq, Repr

namespace Day

def isLeap (year : Int) : Bool := year % 4 == 0 && (year % 100 != 0 || year % 400 == 0)

def inMonth (year : Int) (month : Nat) : Nat :=
  if month = 2 then (if isLeap year then 29 else 28)
  else if month = 4 ∨ month = 6 ∨ month = 9 ∨ month = 11 then 30 else 31

/-- Days from the start of 1970. Years are counted from March, so that a leap day is the last of its year. -/
def number (d : Day) : Int :=
  let year := if d.month ≤ 2 then d.year - 1 else d.year
  let era := year / 400
  let inEra := year - era * 400
  let month : Int := if d.month > 2 then d.month - 3 else d.month + 9
  let dayOfYear := (153 * month + 2) / 5 + d.day - 1
  era * 146097 + (inEra * 365 + inEra / 4 - inEra / 100 + dayOfYear) - 719468

def ofNumber (n : Int) : Day :=
  let z := n + 719468
  let era := z / 146097
  let dayOfEra := z - era * 146097
  let yearOfEra := (dayOfEra - dayOfEra / 1460 + dayOfEra / 36524 - dayOfEra / 146096) / 365
  let dayOfYear := dayOfEra - (365 * yearOfEra + yearOfEra / 4 - yearOfEra / 100)
  let month := (5 * dayOfYear + 2) / 153
  let day := dayOfYear - (153 * month + 2) / 5 + 1
  let month := if month < 10 then month + 3 else month - 9
  let year := yearOfEra + era * 400
  ⟨if month ≤ 2 then year + 1 else year, month.toNat, day.toNat⟩

end Day

namespace Stamp

abbrev perDay : Int := 86400

def fractionText (nanos : Nat) : List Char :=
  if nanos = 0 then []
  else '.' :: ((Text.padded 9 nanos).reverse.dropWhile (· == '0')).reverse

def offsetText (offset : Int) : List Char :=
  if offset = 0 then ['Z']
  else (if offset < 0 then '-' else '+') :: Text.padded 2 (offset.natAbs / 60) ++ ':' :: Text.padded 2 (offset.natAbs % 60)

/-- The RFC 3339 text, which has years 0 to 9999 only. -/
def write (t : Stamp) : Option (List Char) :=
  let local_ := t.seconds + t.offset * 60
  let day := Day.ofNumber (local_ / perDay)
  let clock := (local_ % perDay).toNat
  if 0 ≤ day.year ∧ day.year ≤ 9999 then
    some (Text.padded 4 day.year.toNat ++ '-' :: Text.padded 2 day.month ++ '-' :: Text.padded 2 day.day ++
      'T' :: Text.padded 2 (clock / 3600) ++ ':' :: Text.padded 2 (clock % 3600 / 60) ++
      ':' :: Text.padded 2 (clock % 60) ++ fractionText t.nanos ++ offsetText t.offset)
  else none

def takeDigits (n : Nat) (s : List Char) : Option (Nat × List Char) :=
  let ds := s.take n
  if ds.length = n ∧ ds.all Text.isDigit then some (Text.digitsValue ds, s.drop n) else none

def takeChar (c : Char) : List Char → Option (List Char)
  | [] => none
  | d :: r => if c = d then some r else none

def fractionNanos (ds : List Char) : Nat :=
  let head := ds.take 9
  Text.digitsValue head * Nat.pow 10 (9 - head.length)

def takeFraction : List Char → Option (Nat × List Char)
  | '.' :: s =>
    let ds := s.takeWhile Text.isDigit
    if ds.isEmpty then none else some (fractionNanos ds, s.dropWhile Text.isDigit)
  | s => some (0, s)

def takeOffset : List Char → Option Int
  | [c] => if c = 'Z' ∨ c = 'z' then some 0 else none
  | sign :: s => do
    let (hours, s) ← takeDigits 2 s
    let s ← takeChar ':' s
    let (minutes, s) ← takeDigits 2 s
    if hours ≤ 23 ∧ minutes ≤ 59 ∧ s.isEmpty then
      let offset : Int := hours * 60 + minutes
      if sign = '+' then some offset else if sign = '-' then some (-offset) else none
    else none
  | [] => none

def endsMonth (seconds : Int) : Bool :=
  let day := Day.ofNumber (seconds / perDay)
  seconds % perDay == perDay - 1 && day.day == Day.inMonth day.year day.month

/-- Reads RFC 3339 text. Any one-byte character may stand between day and clock. A second 60 is taken where a leap
second can be, and counts as the last nanosecond before it. -/
def parse (s : List Char) : Option Stamp := do
  let (year, s) ← takeDigits 4 s
  let s ← takeChar '-' s
  let (month, s) ← takeDigits 2 s
  let s ← takeChar '-' s
  let (day, s) ← takeDigits 2 s
  let (between, s) ← match s with
    | c :: r => some (c, r)
    | [] => none
  let (hour, s) ← takeDigits 2 s
  let s ← takeChar ':' s
  let (minute, s) ← takeDigits 2 s
  let s ← takeChar ':' s
  let (second, s) ← takeDigits 2 s
  let (nanos, s) ← takeFraction s
  let offset ← takeOffset s
  let leap := second == 60
  let second := if leap then 59 else second
  let nanos := if leap then 999999999 else nanos
  guard (between.toNat < 128)
  guard (1 ≤ month ∧ month ≤ 12 ∧ 1 ≤ day ∧ day ≤ Day.inMonth year month)
  guard (hour ≤ 23 ∧ minute ≤ 59 ∧ second ≤ 59)
  let days := Day.number ⟨year, month, day⟩
  let seconds := days * perDay + (hour * 3600 + minute * 60 + second : Nat) - offset * 60
  guard (!leap || endsMonth seconds)
  return ⟨seconds, nanos, offset⟩

end Stamp

end LedgerLoad
