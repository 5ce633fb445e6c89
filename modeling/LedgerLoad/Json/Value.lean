import LedgerLoad.Decimal.Shortest

/-!
JSON values and their text, compact or indented.
-/

set_option autoImplicit false

namespace LedgerLoad

/-- A JSON value. Whole numbers and doubles are kept apart, and members keep their order. -/
inductive Json where
  | null
  | bool (b : Bool)
  | int (n : Int)
  | float (x : Float)
  | text (s : String)
  | list (items : List Json)
  | record (members : List (String × Json))
deriving Inhabited

namespace Json

/-- Doubles are plain from `1e-5` up to below `1e16`. -/
def floatLayout : Decimal.Layout := ⟨-5, 15⟩

def floatText (x : Float) : List Char :=
  match Decimal.exact x with
  | .nan | .infinite _ => ['n', 'u', 'l', 'l']
  | .finite negative m e =>
    let text := if m = 0 then ['0', '.', '0'] else (Decimal.shortest m e).write floatLayout
    if negative then '-' :: text else text

def intText (n : Int) : List Char :=
  if n < 0 then '-' :: Text.decimal n.natAbs else Text.decimal n.natAbs

def escaped (c : Char) : List Char :=
  if c = '"' then ['\\', '"']
  else if c = '\\' then ['\\', '\\']
  else if c = '\n' then ['\\', 'n']
  else if c = '\r' then ['\\', 'r']
  else if c = '\t' then ['\\', 't']
  else if c = '\x08' then ['\\', 'b']
  else if c = '\x0c' then ['\\', 'f']
  else if c.toNat < 32 then ['\\', 'u', '0', '0', Text.hexDigit (c.toNat / 16), Text.hexDigit c.toNat]
  else [c]

def quoted (s : List Char) : List Char := '"' :: s.flatMap escaped ++ ['"']

structure Layout where
  gap : Nat → List Char
  afterColon : List Char

def compactLayout : Layout := ⟨fun _ => [], []⟩

def indentedLayout : Layout := ⟨fun depth => '\n' :: List.replicate (2 * depth) ' ', [' ']⟩

mutual

def render (l : Layout) (depth : Nat) : Json → List Char
  | .null => ['n', 'u', 'l', 'l']
  | .bool b => if b then ['t', 'r', 'u', 'e'] else ['f', 'a', 'l', 's', 'e']
  | .int n => intText n
  | .float x => floatText x
  | .text s => quoted s.toList
  | .list [] => ['[', ']']
  | .list (v :: vs) => '[' :: l.gap (depth + 1) ++ render l (depth + 1) v ++ renderItems l (depth + 1) vs ++ l.gap depth ++ [']']
  | .record [] => ['\x7b', '\x7d']
  | .record ((k, v) :: ms) =>
    '\x7b' :: l.gap (depth + 1) ++ quoted k.toList ++ ':' :: l.afterColon ++ render l (depth + 1) v ++
      renderMembers l (depth + 1) ms ++ l.gap depth ++ ['\x7d']

def renderItems (l : Layout) (depth : Nat) : List Json → List Char
  | [] => []
  | v :: vs => ',' :: l.gap depth ++ render l depth v ++ renderItems l depth vs

def renderMembers (l : Layout) (depth : Nat) : List (String × Json) → List Char
  | [] => []
  | (k, v) :: ms =>
    ',' :: l.gap depth ++ quoted k.toList ++ ':' :: l.afterColon ++ render l depth v ++ renderMembers l depth ms

end

def compact (v : Json) : String := String.ofList (v.render compactLayout 0)

def indented (v : Json) : String := String.ofList (v.render indentedLayout 0)

end Json

end LedgerLoad
