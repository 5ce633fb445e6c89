import LedgerLoad.Text.Digits
import LedgerLoad.Text.Utf8

/-!
Percent encoding: the bytes of a character that may not stand for itself are written as `%` and two hexadecimal
digits.
-/

set_option autoImplicit false

namespace LedgerLoad.Text.Percent

def encodeByte (b : UInt8) : List Char := ['%', hexDigitUpper (b.toNat / 16), hexDigitUpper b.toNat]

def encode (set : Char → Bool) (s : List Char) : List Char :=
  s.flatMap fun c => if set c then (String.utf8EncodeChar c).flatMap encodeByte else [c]

/-- The bytes of a text. A percent sign that is not followed by two hexadecimal digits stands for itself. -/
def decode : List Char → List UInt8
  | '%' :: a :: b :: r =>
    match hexValue? a, hexValue? b with
    | some x, some y => UInt8.ofNat (x * 16 + y) :: decode r
    | _, _ => String.utf8EncodeChar '%' ++ decode (a :: b :: r)
  | c :: r => String.utf8EncodeChar c ++ decode r
  | [] => []

def isControl (c : Char) : Bool := c.toNat < 32 || c.toNat > 126

def isIn (chars : String) (c : Char) : Bool := chars.toList.contains c

def fragmentSet (c : Char) : Bool := isControl c || isIn " \"<>`" c

def querySet (c : Char) : Bool := isControl c || isIn " \"#<>" c

def specialQuerySet (c : Char) : Bool := querySet c || c == '\''

def pathSet (c : Char) : Bool := fragmentSet c || isIn "#?\x7b\x7d" c

def userinfoSet (c : Char) : Bool := pathSet c || isIn "/:;=@[\\]^|" c

def segmentSet (c : Char) : Bool := pathSet c || isIn "/%" c

def specialSegmentSet (c : Char) : Bool := segmentSet c || c == '\\'

end LedgerLoad.Text.Percent
