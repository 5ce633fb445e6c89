import LedgerLoad.Text.Blank
import LedgerLoad.Text.SmallForm
import LedgerLoad.Url.Address

/-!
Domain names in ASCII. A label with other characters is written as `xn--` and its Punycode, in which the ASCII
characters come first and every other one is a step from the one before it.
-/

set_option autoImplicit false

namespace LedgerLoad.Url

/-! ### Punycode -/

namespace Punycode

def digit (n : Nat) : Char := Char.ofNat (if n < 26 then n + 97 else n + 22)

def digitValue? (c : Char) : Option Nat :=
  if 'a' ≤ c ∧ c ≤ 'z' then some (c.toNat - 97)
  else if 'A' ≤ c ∧ c ≤ 'Z' then some (c.toNat - 65)
  else if '0' ≤ c ∧ c ≤ '9' then some (c.toNat - 22)
  else none

def shrink : Nat → Nat → Nat → Nat
  | 0, _, k => k
  | fuel + 1, delta, k => if delta > 455 then shrink fuel (delta / 35) (k + 36) else k + 36 * delta / (delta + 38)

def adapt (delta points : Nat) (first : Bool) : Nat :=
  let delta := if first then delta / 700 else delta / 2
  shrink 16 (delta + delta / points) 0

def threshold (k bias : Nat) : Nat := if k ≤ bias then 1 else if k ≥ bias + 26 then 26 else k - bias

def number : Nat → Nat → Nat → Nat → List Char
  | 0, _, _, _ => []
  | fuel + 1, q, k, bias =>
    let t := threshold k bias
    if q < t then [digit q] else digit (t + (q - t) % (36 - t)) :: number fuel ((q - t) / (36 - t)) (k + 36) bias

structure State where
  delta : Nat
  bias : Nat
  handled : Nat
  out : List Char

/-- One pass over the label for the character numbered `n`: every smaller character widens the step, and each
occurrence of `n` is written. -/
def pass (n basic : Nat) (s : State) (label : List Char) : State :=
  label.foldl (fun s c =>
    if c.toNat < n then { s with delta := s.delta + 1 }
    else if c.toNat = n then
      { delta := 0
        bias := adapt s.delta (s.handled + 1) (s.handled == basic)
        handled := s.handled + 1
        out := s.out ++ number 16 s.delta 36 s.bias }
    else s) s

def passes (label : List Char) (basic : Nat) : Nat → List Nat → State → State
  | _, [], s => s
  | n, m :: ms, s =>
    let s := pass m basic { s with delta := s.delta + (m - n) * (s.handled + 1) } label
    passes label basic (m + 1) ms { s with delta := s.delta + 1 }

def encode (label : List Char) : List Char :=
  let basic := label.filter (·.toNat < 128)
  let others := ((label.filter (·.toNat ≥ 128)).map Char.toNat).mergeSort.eraseDups
  let out := if basic.isEmpty then [] else basic ++ ['-']
  (passes label basic.length 128 others ⟨0, 72, basic.length, out⟩).out

def readNumber (bias : Nat) : Nat → Nat → Nat → List Char → Option (Nat × List Char)
  | _, _, _, [] => none
  | k, weight, value, c :: r => do
    let d ← digitValue? c
    let value := value + d * weight
    let t := threshold k bias
    if value ≥ 0x100000000 then none
    else if d < t then some (value, r)
    else readNumber bias (k + 36) (weight * (36 - t)) value r

def insertAt (i : Nat) (c : Char) (s : List Char) : List Char := s.take i ++ c :: s.drop i

def insertAll : Nat → Nat → Nat → Nat → List Char → List Char → Option (List Char)
  | _, _, _, _, [], out => some out
  | 0, _, _, _, _, _ => none
  | fuel + 1, n, i, bias, text, out => do
    let (step, text) ← readNumber bias 36 1 0 text
    let points := out.length + 1
    let place := (i + step) % points
    let n := n + (i + step) / points
    let c := Char.ofNat n
    if c.toNat ≠ n then none
    else insertAll fuel n (place + 1) (adapt step points (i == 0)) text (insertAt place c out)

def decode (text : List Char) : Option (List Char) :=
  let (after, before) := text.reverse.span (· != '-')
  let basic := (before.drop 1).reverse
  let (basic, digits) := if before.isEmpty then ([], text) else (basic, after.reverse)
  if basic.all (·.toNat < 128) then insertAll digits.length 128 0 72 digits basic else none

end Punycode

/-! ### Names -/

/-- Characters beyond ASCII that have no place in a name and are passed over. -/
def isPassedOver (c : Char) : Bool :=
  let n := c.toNat
  n == 0xad || n == 0x200b || n == 0x2060 || n == 0xfeff || (0xfe00 ≤ n && n ≤ 0xfe0f)

def isFullStop (c : Char) : Bool := c == '.' || c == '\u3002' || c == '\uff0e' || c == '\uff61'

def isForbidden (c : Char) : Bool :=
  c.toNat ≤ 32 || c.toNat == 127 || "%#/:<>?@[\\]^|".toList.contains c

def isAdmitted (c : Char) : Bool :=
  !isForbidden c && !Text.isBlank c && !(0x80 ≤ c.toNat && c.toNat ≤ 0x9f) && !isPassedOver c && Text.smallForm c == c

/-- The label in ASCII, if it is one. A label that is already in Punycode has to stand for one that is not ASCII. -/
def asciiLabel? (label : List Char) : Option (List Char) :=
  if label.all (·.toNat < 128) then
    match label with
    | 'x' :: 'n' :: '-' :: '-' :: rest =>
      match Punycode.decode rest with
      | some plain =>
        if plain.any (·.toNat ≥ 128) && plain.all isAdmitted && Punycode.encode plain == rest then some label else none
      | none => none
    | _ => some label
  else some ('x' :: 'n' :: '-' :: '-' :: Punycode.encode label)

def asciiName? (name : List Char) : Option (List Char) := do
  let folded := (name.filter (!isPassedOver ·)).map fun c => if isFullStop c then '.' else Text.smallForm c
  if folded.all isAdmitted then
    let labels ← (Text.splitOn (· == '.') folded).mapM asciiLabel?
    return ['.'].intercalate labels
  else none

end LedgerLoad.Url
