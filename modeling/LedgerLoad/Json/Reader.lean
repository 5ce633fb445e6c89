import LedgerLoad.Json.Value

/-!
Reading JSON text from left to right, with the kind of value expected at each place known in advance. The
first fault met ends the reading.
-/

set_option autoImplicit false

namespace LedgerLoad.Json

inductive Rejection where
  | missingField (name : String)
  | duplicateField (name : String)
  | unknownVariant (name : String) (expected : List String)
  | other
deriving DecidableEq, Repr

inductive Fault where
  | truncated
  | malformed
  | rejected (why : Rejection)
deriving DecidableEq, Repr

def alternatives : List String → String
  | [a] => "`" ++ a ++ "`"
  | [a, b] => "`" ++ a ++ "` or `" ++ b ++ "`"
  | names => "one of " ++ ", ".intercalate (names.map fun n => "`" ++ n ++ "`")

def Rejection.detail : Rejection → Option String
  | .missingField name => some ("missing field `" ++ name ++ "`")
  | .duplicateField name => some ("duplicate field `" ++ name ++ "`")
  | .unknownVariant name expected => some ("unknown variant `" ++ name ++ "`, expected " ++ alternatives expected)
  | .other => none

/-- Reads a value at the front of a text and gives it with the rest. -/
abbrev Reader (α : Type) := List Char → Except Fault (α × List Char)

def isSpace (c : Char) : Bool := c == ' ' || c == '\n' || c == '\t' || c == '\r'

def skipSpace (s : List Char) : List Char := s.dropWhile isSpace

def mismatch : Fault := .rejected .other

def expect : List Char → List Char → Except Fault (List Char)
  | [], s => .ok s
  | _ :: _, [] => .error .truncated
  | w :: ws, c :: s => if c = w then expect ws s else .error .malformed

/-! ### Numbers -/

/-- A number as it was written. Whole numbers of 64 bits are kept exactly, all others are doubles; minus zero
is a double. -/
inductive Numeral where
  | natural (n : Nat)
  | negative (n : Nat)
  | float (x : Float)

/-- Takes up digits as long as the number stays in 64 bits: the number and the digits left over. -/
def fit : Nat → List Char → Nat × List Char
  | n, [] => (n, [])
  | n, c :: r =>
    let m := n * 10 + Text.digitValue c
    if m < 0x10000000000000000 then fit m r else (n, c :: r)

def tenTo (k : Nat) : Float := Float.ofScientific 1 false k

def scaleTen (x : Float) (e : Int) : Nat → Except Fault Float
  | 0 => .ok x
  | fuel + 1 =>
    if e.natAbs ≤ 308 then
      if e ≥ 0 then
        let y := x * tenTo e.natAbs
        if y.isInf then .error .malformed else .ok y
      else .ok (x / tenTo e.natAbs)
    else if x == 0 then .ok x
    else if e ≥ 0 then .error .malformed
    else scaleTen (x / tenTo 308) (e + 308) fuel

def scaled (positive : Bool) (digits : Nat) (e : Int) : Except Fault Numeral := do
  let x ← scaleTen digits.toUInt64.toFloat e 4
  return .float (if positive then x else -x)

def readExponent (positive : Bool) (digits : Nat) (e : Int) (s : List Char) : Except Fault (Numeral × List Char) := do
  let (up, s) := match s with
    | '+' :: r => (true, r)
    | '-' :: r => (false, r)
    | _ => (true, s)
  match s with
  | [] => throw .truncated
  | c :: _ =>
    if !Text.isDigit c then throw .malformed
    let power := Text.digitsValue (s.takeWhile Text.isDigit)
    let rest := s.dropWhile Text.isDigit
    if power < 0x80000000 then
      return (← scaled positive digits (if up then e + power else e - power), rest)
    else if digits ≠ 0 ∧ up then throw .malformed
    else return (.float (if positive then 0 else -0), rest)

def readFraction (positive : Bool) (digits : Nat) (e : Nat) (s : List Char) : Except Fault (Numeral × List Char) := do
  let ds := s.takeWhile Text.isDigit
  let rest := s.dropWhile Text.isDigit
  if ds.isEmpty then
    throw (if rest.isEmpty then .truncated else .malformed)
  let (digits, spare) := fit digits ds
  let e : Int := (e : Int) - (ds.length - spare.length : Nat)
  match rest with
  | c :: r => if c = 'e' ∨ c = 'E' then readExponent positive digits e r else return (← scaled positive digits e, rest)
  | [] => return (← scaled positive digits e, rest)

def readNumber (positive : Bool) (s : List Char) : Except Fault (Numeral × List Char) := do
  match s with
  | [] => throw .truncated
  | c :: r =>
    if !Text.isDigit c then throw .malformed
    if c = '0' ∧ (r.head?.any Text.isDigit) then throw .malformed
    let ds := s.takeWhile Text.isDigit
    let rest := s.dropWhile Text.isDigit
    let (digits, spare) := fit 0 ds
    let whole : Except Fault (Numeral × List Char) :=
      if spare.isEmpty then
        if positive then .ok (.natural digits, rest)
        else if 0 < digits ∧ digits ≤ 0x8000000000000000 then .ok (.negative digits, rest)
        else .ok (.float (-(digits.toUInt64.toFloat)), rest)
      else do return (← scaled positive digits spare.length, rest)
    match rest with
    | '.' :: r => readFraction positive digits spare.length r
    | 'e' :: r => readExponent positive digits spare.length r
    | 'E' :: r => readExponent positive digits spare.length r
    | _ => whole

/-! ### Strings -/

/-- Where a reader of a string stands: between characters, after a backslash, or inside the digits of an
escaped code unit. A high surrogate waits for the escape of its low half. -/
inductive Escape where
  | none
  | backslash
  | unit (count value : Nat) (high : Option Nat)
  | pair (high : Nat)
  | pairBackslash (high : Nat)

def shortEscape? (c : Char) : Option Char :=
  if c = '"' then some '"'
  else if c = '\\' then some '\\'
  else if c = '/' then some '/'
  else if c = 'b' then some '\x08'
  else if c = 'f' then some '\x0c'
  else if c = 'n' then some '\n'
  else if c = 'r' then some '\r'
  else if c = 't' then some '\t'
  else none

def byteLength (s : List Char) : Nat := s.foldl (fun n c => n + c.utf8Size) 0

/-- A bad digit among the four of an escape. With fewer than four bytes left the text ended early. -/
def badDigit (count : Nat) (s : List Char) : Fault :=
  if count + byteLength (s.take 4) < 4 then .truncated else .malformed

/-- Reads a string after its opening quote; what was read so far is in reverse. -/
def readString : Escape → List Char → List Char → Except Fault (String × List Char)
  | _, _, [] => .error .truncated
  | .none, acc, c :: r =>
    if c = '"' then .ok (String.ofList acc.reverse, r)
    else if c = '\\' then readString .backslash acc r
    else if c.toNat < 32 then .error .malformed
    else readString .none (c :: acc) r
  | .backslash, acc, c :: r =>
    if c = 'u' then readString (.unit 0 0 none) acc r
    else match shortEscape? c with
      | some e => readString .none (e :: acc) r
      | none => .error .malformed
  | .unit count value high, acc, c :: r =>
    match Text.hexValue? c with
    | none => .error (badDigit count (c :: r))
    | some d =>
      let value := value * 16 + d
      if count < 3 then readString (.unit (count + 1) value high) acc r
      else match high with
        | none =>
          if 0xdc00 ≤ value ∧ value ≤ 0xdfff then .error .malformed
          else if 0xd800 ≤ value ∧ value ≤ 0xdbff then readString (.pair value) acc r
          else readString .none (Char.ofNat value :: acc) r
        | some h =>
          if 0xdc00 ≤ value ∧ value ≤ 0xdfff then
            readString .none (Char.ofNat (0x10000 + (h - 0xd800) * 0x400 + (value - 0xdc00)) :: acc) r
          else .error .malformed
  | .pair h, acc, c :: r => if c = '\\' then readString (.pairBackslash h) acc r else .error .malformed
  | .pairBackslash h, acc, c :: r => if c = 'u' then readString (.unit 0 0 (some h)) acc r else .error .malformed

def skipString : Escape → List Char → Except Fault (List Char)
  | _, [] => .error .truncated
  | .none, c :: r =>
    if c = '"' then .ok r
    else if c = '\\' then skipString .backslash r
    else if c.toNat < 32 then .error .malformed
    else skipString .none r
  | .unit count value high, c :: r =>
    match Text.hexValue? c with
    | none => .error (badDigit count (c :: r))
    | some _ => if count < 3 then skipString (.unit (count + 1) value high) r else skipString .none r
  | _, c :: r =>
    if c = 'u' then skipString (.unit 0 0 none) r
    else if (shortEscape? c).isSome then skipString .none r
    else .error .malformed

/-! ### Values that are skipped -/

def skipExponent (s : List Char) : Except Fault (List Char) :=
  let s := match s with
    | '+' :: r => r
    | '-' :: r => r
    | _ => s
  match s with
  | c :: r => if Text.isDigit c then .ok (r.dropWhile Text.isDigit) else .error .malformed
  | [] => .error .malformed

def skipNumber (s : List Char) : Except Fault (List Char) :=
  match s with
  | [] => .error .malformed
  | c :: r =>
    if !Text.isDigit c then .error .malformed
    else if c = '0' ∧ r.head?.any Text.isDigit then .error .malformed
    else match s.dropWhile Text.isDigit with
      | '.' :: r =>
        if !r.head?.any Text.isDigit then .error .malformed
        else match r.dropWhile Text.isDigit with
          | 'e' :: r => skipExponent r
          | 'E' :: r => skipExponent r
          | r => .ok r
      | 'e' :: r => skipExponent r
      | 'E' :: r => skipExponent r
      | r => .ok r

inductive Bracket where
  | list
  | record
deriving DecidableEq, Repr

def skipKey (s : List Char) : Except Fault (List Char) := do
  match skipSpace s with
  | [] => throw .truncated
  | '"' :: r =>
    match skipSpace (← skipString .none r) with
    | [] => throw .truncated
    | ':' :: r => return r
    | _ => throw .malformed
  | _ => throw .malformed

def skipScalar : List Char → Except Fault (List Char)
  | 'n' :: r => expect ['u', 'l', 'l'] r
  | 't' :: r => expect ['r', 'u', 'e'] r
  | 'f' :: r => expect ['a', 'l', 's', 'e'] r
  | '-' :: r => skipNumber r
  | '"' :: r => skipString .none r
  | c :: r => if Text.isDigit c then skipNumber (c :: r) else .error .malformed
  | [] => .error .truncated

mutual

/-- Skips a value inside the brackets still open. Each call takes up at least one character. -/
def skipNested (opened : List Bracket) : Nat → List Char → Except Fault (List Char)
  | 0, _ => .error .truncated
  | fuel + 1, s =>
    match skipSpace s with
    | '[' :: r => skipAfter (.list :: opened) true fuel r
    | '\x7b' :: r => skipAfter (.record :: opened) true fuel r
    | s => do skipAfter opened false fuel (← skipScalar s)

/-- Goes on after an opening bracket (`fresh`) or after a value. -/
def skipAfter (opened : List Bracket) (fresh : Bool) : Nat → List Char → Except Fault (List Char)
  | 0, _ => .error .truncated
  | fuel + 1, s =>
    match opened with
    | [] => .ok s
    | b :: outer =>
      let next (s : List Char) : Except Fault (List Char) := do
        match b with
        | .list => skipNested opened fuel s
        | .record => skipNested opened fuel (← skipKey s)
      match skipSpace s with
      | [] => .error .truncated
      | ',' :: r => if fresh then next (',' :: r) else next r
      | ']' :: r => if b = .list then skipAfter outer false fuel r else if fresh then next (']' :: r) else .error .malformed
      | '\x7d' :: r => if b = .record then skipAfter outer false fuel r else if fresh then next ('\x7d' :: r) else .error .malformed
      | s => if fresh then next s else .error .malformed

end

def skipValue (s : List Char) : Except Fault (List Char) := skipNested [] (2 * s.length + 2) s

/-! ### Values of a kind -/

/-- What is wrong with a value of another kind than the one expected: it may be no value at all. -/
def wrongKind : List Char → Fault
  | 'n' :: r => match expect ['u', 'l', 'l'] r with | .ok _ => mismatch | .error f => f
  | 't' :: r => match expect ['r', 'u', 'e'] r with | .ok _ => mismatch | .error f => f
  | 'f' :: r => match expect ['a', 'l', 's', 'e'] r with | .ok _ => mismatch | .error f => f
  | '-' :: r => match readNumber false r with | .ok _ => mismatch | .error f => f
  | '"' :: r => match readString .none [] r with | .ok _ => mismatch | .error f => f
  | '[' :: _ => mismatch
  | '\x7b' :: _ => mismatch
  | c :: r =>
    if Text.isDigit c then match readNumber true (c :: r) with | .ok _ => mismatch | .error f => f
    else .malformed
  | [] => .truncated

def readBool : Reader Bool := fun s =>
  match skipSpace s with
  | 't' :: r => do return (true, ← expect ['r', 'u', 'e'] r)
  | 'f' :: r => do return (false, ← expect ['a', 'l', 's', 'e'] r)
  | s => .error (wrongKind s)

def readNumeral : Reader Numeral := fun s =>
  match skipSpace s with
  | '-' :: r => readNumber false r
  | c :: r => if Text.isDigit c then readNumber true (c :: r) else .error (wrongKind (c :: r))
  | [] => .error .truncated

def readText : Reader String := fun s =>
  match skipSpace s with
  | '"' :: r => readString .none [] r
  | s => .error (wrongKind s)

def refine {α β : Type} (r : Reader α) (f : α → Except Rejection β) : Reader β := fun s => do
  let (a, rest) ← r s
  match f a with
  | .ok b => return (b, rest)
  | .error why => throw (.rejected why)

def readNat (least most : Nat) : Reader Nat := refine readNumeral fun
  | .natural n => if least ≤ n ∧ n ≤ most then .ok n else .error .other
  | _ => .error .other

def readInt : Reader Int := refine readNumeral fun
  | .natural n => if n < 0x8000000000000000 then .ok n else .error .other
  | .negative n => .ok (-n)
  | .float _ => .error .other

def readFloat : Reader Float := refine readNumeral fun
  | .natural n => .ok n.toUInt64.toFloat
  | .negative n => .ok (-(n.toUInt64.toFloat))
  | .float x => .ok x

/-- One of several names, given as a string or as the only key of a record with the value `null`. Nothing else
is looked at. -/
def readName {α : Type} (named : List (String × α)) : Reader α := fun s => do
  let look (name : String) : Except Fault α :=
    match named.lookup name with
    | some a => .ok a
    | none => .error (.rejected (.unknownVariant name (named.map Prod.fst)))
  match skipSpace s with
  | [] => throw .truncated
  | '"' :: r =>
    let (name, rest) ← readString .none [] r
    return (← look name, rest)
  | '\x7b' :: r =>
    let (name, rest) ← readText r
    let a ← look name
    match skipSpace rest with
    | [] => throw .truncated
    | ':' :: r =>
      match skipSpace r with
      | 'n' :: r =>
        match skipSpace (← expect ['u', 'l', 'l'] r) with
        | [] => throw .truncated
        | '\x7d' :: r => return (a, r)
        | _ => throw .malformed
      | s => throw (wrongKind s)
    | _ => throw .malformed
  | _ => throw .malformed

def readOption {α : Type} (r : Reader α) : Reader (Option α) := fun s =>
  match skipSpace s with
  | 'n' :: rest => do return (none, ← expect ['u', 'l', 'l'] rest)
  | _ => do
    let (a, rest) ← r s
    return (some a, rest)

/-- Whether another item of a list follows, and the text from there. -/
def nextItem (first : Bool) (s : List Char) : Except Fault (Bool × List Char) :=
  match skipSpace s with
  | [] => .error .truncated
  | ']' :: r => .ok (false, ']' :: r)
  | ',' :: r =>
    if first then .ok (true, ',' :: r)
    else match skipSpace r with
      | [] => .error .truncated
      | ']' :: _ => .error .malformed
      | r => .ok (true, r)
  | s => if first then .ok (true, s) else .error .malformed

def closeList (s : List Char) : Except Fault (List Char) :=
  match skipSpace s with
  | [] => .error .truncated
  | ']' :: r => .ok r
  | _ => .error .malformed

def readItems {α : Type} (r : Reader α) (first : Bool) (acc : List α) : Nat → Reader (List α)
  | 0, _ => .error .truncated
  | fuel + 1, s => do
    let (more, s) ← nextItem first s
    if more then
      let (a, s) ← r s
      readItems r false (a :: acc) fuel s
    else return (acc.reverse, ← closeList s)

def readList {α : Type} (r : Reader α) : Reader (List α) := fun s =>
  match skipSpace s with
  | '[' :: rest => readItems r true [] (rest.length + 1) rest
  | s => .error (wrongKind s)

def read {α : Type} (r : Reader α) (text : String) : Except Fault α := do
  let (a, rest) ← r text.toList
  if (skipSpace rest).isEmpty then return a else throw .malformed

end LedgerLoad.Json
