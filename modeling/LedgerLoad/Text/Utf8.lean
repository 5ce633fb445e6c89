/-!
UTF-8 in both directions.

Reading goes as far as the bytes are well formed. What stops it is told as the standard tells it: so many bytes that
begin no character, or a character cut short by the end.
-/

set_option autoImplicit false

namespace LedgerLoad.Text.Utf8

def encode (s : List Char) : List UInt8 := s.flatMap String.utf8EncodeChar

/-- What stands at the front of some bytes: a character and how many bytes follow its first one, bytes that begin no
character, or the beginning of a character that the bytes do not hold to its end. -/
inductive Front where
  | char (c : Char) (more : Nat)
  | invalid (length : Nat)
  | incomplete
deriving DecidableEq, Repr

def isContinuation (b : UInt8) : Bool := 0x80 ≤ b && b ≤ 0xbf

def isSecond (first b : UInt8) : Bool :=
  if first = 0xe0 then 0xa0 ≤ b && b ≤ 0xbf
  else if first = 0xed then 0x80 ≤ b && b ≤ 0x9f
  else if first = 0xf0 then 0x90 ≤ b && b ≤ 0xbf
  else if first = 0xf4 then 0x80 ≤ b && b ≤ 0x8f
  else isContinuation b

def payload (b : UInt8) : Nat := b.toNat % 64

def front (first : UInt8) (rest : List UInt8) : Front :=
  if first < 0x80 then .char (Char.ofNat first.toNat) 0
  else if first < 0xc2 then .invalid 1
  else if first < 0xe0 then
    match rest with
    | [] => .incomplete
    | b :: _ =>
      if isSecond first b then .char (Char.ofNat (first.toNat % 32 * 64 + payload b)) 1 else .invalid 1
  else if first < 0xf0 then
    match rest with
    | [] => .incomplete
    | b :: rest =>
      if isSecond first b then
        match rest with
        | [] => .incomplete
        | c :: _ =>
          if isContinuation c then .char (Char.ofNat ((first.toNat % 16 * 64 + payload b) * 64 + payload c)) 2
          else .invalid 2
      else .invalid 1
  else if first < 0xf5 then
    match rest with
    | [] => .incomplete
    | b :: rest =>
      if isSecond first b then
        match rest with
        | [] => .incomplete
        | c :: rest =>
          if isContinuation c then
            match rest with
            | [] => .incomplete
            | d :: _ =>
              if isContinuation d then
                .char (Char.ofNat (((first.toNat % 8 * 64 + payload b) * 64 + payload c) * 64 + payload d)) 3
              else .invalid 3
          else .invalid 2
      else .invalid 1
  else .invalid 1

/-- The characters up to the first fault, and the bytes from there on. -/
def decodeFront : List UInt8 → List Char × List UInt8
  | [] => ([], [])
  | b :: bs =>
    match front b bs with
    | .char c more =>
      let (cs, held) := decodeFront (bs.drop more)
      (c :: cs, held)
    | _ => ([], b :: bs)
termination_by bs => bs.length
decreasing_by simp only [List.length_drop, List.length_cons]; omega

def decode? (bytes : List UInt8) : Option (List Char) :=
  match decodeFront bytes with
  | (cs, []) => some cs
  | _ => none

def decodeLossy : List UInt8 → List Char
  | [] => []
  | b :: bs =>
    match front b bs with
    | .char c more => c :: decodeLossy (bs.drop more)
    | .invalid length => '\uFFFD' :: decodeLossy (bs.drop (length - 1))
    | .incomplete => ['\uFFFD']
termination_by bs => bs.length
decreasing_by all_goals simp only [List.length_drop, List.length_cons]; omega

def faultText (bytes : List UInt8) : Option String :=
  match bytes with
  | [] => none
  | b :: bs =>
    match front b bs with
    | .char _ _ => none
    | .invalid length => some ("invalid utf-8 sequence of " ++ toString length ++ " bytes from index 0")
    | .incomplete => some "incomplete utf-8 byte sequence from index 0"

end LedgerLoad.Text.Utf8
