import LedgerLoad.Text.Digits
import LedgerLoad.Text.Fields

/-!
Internet addresses as they are written in the host of a URL.

An address of version 4 has up to four numbers, decimal, octal or hexadecimal, of which the last fills all bytes that
are left. An address of version 6 has eight pieces of 16 bits, of which one run of zeros may be left out.
-/

set_option autoImplicit false

namespace LedgerLoad.Url

open Text (isDigit hexValue? digitValue decimal splitOn)

/-! ### Version 4 -/

def octalDigit (c : Char) : Bool := '0' ≤ c && c ≤ '7'

def hexDigit (c : Char) : Bool := (hexValue? c).isSome

def valueOf (base : Nat) (ds : List Char) : Nat := ds.foldl (fun n c => n * base + (hexValue? c).getD 0) 0

/-- A number of an address: hexadecimal after `0x`, octal after `0`, else decimal. A bare `0x` is zero. -/
def ipv4Number? (s : List Char) : Option Nat :=
  match s with
  | [] => none
  | '0' :: 'x' :: ds => if ds.all hexDigit then some (valueOf 16 ds) else none
  | '0' :: 'X' :: ds => if ds.all hexDigit then some (valueOf 16 ds) else none
  | '0' :: d :: ds => if (d :: ds).all octalDigit then some (valueOf 8 (d :: ds)) else none
  | ds => if ds.all isDigit then some (valueOf 10 ds) else none

/-- The fields of a dotted name; a dot at the end adds none. -/
def dotted (s : List Char) : List (List Char) :=
  match (splitOn (· == '.') s).reverse with
  | [] :: last :: before => (last :: before).reverse
  | fields => fields.reverse

def endsInNumber (s : List Char) : Bool :=
  match (splitOn (· == '.') s).reverse with
  | [] => false
  | [[]] => false
  | [] :: last :: _ => (!last.isEmpty && last.all isDigit) || (ipv4Number? last).isSome
  | last :: _ => last.all isDigit || (ipv4Number? last).isSome

def ipv4Value (before : List Nat) (last : Nat) : Option Nat :=
  if before.length ≤ 3 ∧ before.all (· ≤ 255) ∧ last < Nat.pow 256 (4 - before.length) then
    some (before.foldl (fun n b => n * 256 + b) 0 * Nat.pow 256 (4 - before.length) + last)
  else none

def parseIpv4 (s : List Char) : Option Nat :=
  match ((dotted s).mapM ipv4Number?).map List.reverse with
  | some (last :: before) => ipv4Value before.reverse last
  | _ => none

def ipv4Text (address : Nat) : List Char :=
  ['.'].intercalate ([3, 2, 1, 0].map fun k => decimal (address / Nat.pow 256 k % 256))

/-! ### Version 6 -/

def piece? (s : List Char) : Option Nat :=
  if s.isEmpty || s.length > 4 || !s.all hexDigit then none else some (valueOf 16 s)

def byte? (s : List Char) : Option Nat :=
  if s.isEmpty || !s.all isDigit || (s.length > 1 && s.head? == some '0') then none
  else
    let n := valueOf 10 s
    if n ≤ 255 then some n else none

/-- The last two pieces may be four dotted bytes. -/
def tailPieces? (s : List Char) : Option (List Nat) :=
  match (splitOn (· == '.') s).mapM byte? with
  | some [a, b, c, d] => some [a * 256 + b, c * 256 + d]
  | _ => (piece? s).map ([·])

def pieces? (s : List Char) : Option (List Nat) :=
  if s.isEmpty then some []
  else match (splitOn (· == ':') s).reverse with
    | [] => none
    | last :: before => do
      let front ← before.reverse.mapM piece?
      return front ++ (← tailPieces? last)

def splitDouble : List Char → Option (List Char × List Char)
  | ':' :: ':' :: r => some ([], r)
  | c :: r => (splitDouble r).map fun (a, b) => (c :: a, b)
  | [] => none

def parseIpv6 (s : List Char) : Option (List Nat) :=
  match splitDouble s with
  | none => do
    let ps ← pieces? s
    if ps.length = 8 then some ps else none
  | some (a, b) => do
    let front ← pieces? a
    let back ← pieces? b
    -- dotted bytes end the address, so they cannot stand before the gap
    if a.contains '.' then none
    else if front.length + back.length ≤ 7 then
      some (front ++ List.replicate (8 - front.length - back.length) 0 ++ back)
    else none

def zeroRun (ps : List Nat) : Nat := (ps.takeWhile (· == 0)).length

/-- Where the longest run of zeros is, the first of several; a run of one does not count. -/
def longestRun (ps : List Nat) : Option (Nat × Nat) :=
  (List.range ps.length).foldl (fun best i =>
    let n := zeroRun (ps.drop i)
    match best with
    | some (_, m) => if n > m then some (i, n) else best
    | none => if n ≥ 2 then some (i, n) else none) none

def colonText (ps : List Nat) : List Char := [':'].intercalate (ps.map (Nat.toDigits 16))

def ipv6Text (ps : List Nat) : List Char :=
  match longestRun ps with
  | none => colonText ps
  | some (i, n) => colonText (ps.take i) ++ [':', ':'] ++ colonText (ps.drop (i + n))

end LedgerLoad.Url
