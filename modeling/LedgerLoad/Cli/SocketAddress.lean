import LedgerLoad.Url.Address

/-!
Socket addresses as they are given on the command line: four dotted bytes or a bracketed address of version 6, a colon
and a port. They are printed in one form: no leading zeros, and the longest run of zero pieces left out.
-/

set_option autoImplicit false

namespace LedgerLoad.Cli

open Text (isDigit digitsValue decimal)

/-- An address of version 6 may name a zone; zero is none. -/
inductive IpAddress where
  | v4 (bytes : List Nat)
  | v6 (pieces : List Nat) (zone : Nat)
deriving DecidableEq, Repr

structure SocketAddress where
  host : IpAddress
  port : Nat
deriving DecidableEq, Repr

namespace SocketAddress

def numberUpTo (most : Nat) (s : List Char) : Option Nat :=
  if !s.isEmpty && s.all isDigit && digitsValue s ≤ most then some (digitsValue s) else none

def port? (s : List Char) : Option Nat := numberUpTo 0xFFFF s

def v4? (s : List Char) : Option IpAddress :=
  match (Text.splitOn (· == '.') s).mapM Url.byte? with
  | some [a, b, c, d] => some (.v4 [a, b, c, d])
  | _ => none

def v6? (s : List Char) : Option IpAddress :=
  match Text.splitOn (· == '%') s with
  | [address] => (Url.parseIpv6 address).map (.v6 · 0)
  | [address, zone] => do some (.v6 (← Url.parseIpv6 address) (← numberUpTo 0xFFFFFFFF zone))
  | _ => none

def parse (s : List Char) : Option SocketAddress :=
  match s with
  | '[' :: r =>
    match r.dropWhile (· != ']') with
    | ']' :: ':' :: port => do some ⟨← v6? (r.takeWhile (· != ']')), ← port? port⟩
    | _ => none
  | s =>
    match Text.splitOn (· == ':') s with
    | [address, port] => do some ⟨← v4? address, ← port? port⟩
    | _ => none

def bytesText (bytes : List Nat) : List Char := ['.'].intercalate (bytes.map decimal)

/-- Addresses of version 4 in the shape of version 6 keep their dots. -/
def piecesText (pieces : List Nat) : List Char :=
  match pieces with
  | [0, 0, 0, 0, 0, 0xffff, high, low] =>
    "::ffff:".toList ++ bytesText [high / 256, high % 256, low / 256, low % 256]
  | pieces => Url.ipv6Text pieces

def hostText : IpAddress → List Char
  | .v4 bytes => bytesText bytes
  | .v6 pieces zone => '[' :: piecesText pieces ++ (if zone = 0 then [] else '%' :: decimal zone) ++ [']']

def text (a : SocketAddress) : String := String.ofList (hostText a.host ++ ':' :: decimal a.port)

end SocketAddress

end LedgerLoad.Cli
