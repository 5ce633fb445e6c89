import LedgerLoad.EventStream.Decoder

/-!
A ledger service reached over gRPC.

The address is checked when the target is made; the connection is opened by the first call, so a service that cannot
be reached shows as failed calls.
-/

set_option autoImplicit false

namespace LedgerLoad

/-! ### Addresses -/

namespace Uri

abbrev maxLength : Nat := 65534

abbrev maxScheme : Nat := 64

def isSchemeChar (c : Char) : Bool := c.isAlphanum || c == '+' || c == '-' || c == '.'

def isAuthorityChar (c : Char) : Bool := c.isAlphanum || "!$&'()*+,-.:;=@[]_~".toList.contains c

def isPathChar (c : Char) : Bool :=
  c.isAlphanum || "!$%&'()*+,-./:;=@[\\]^_|~\"\x7b\x7d".toList.contains c

def isQueryChar (c : Char) : Bool :=
  0x21 ≤ c.toNat && c.toNat ≤ 0x7e && c != '"' && c != '#' && c != '<' && c != '>'

structure Scan where
  colons : Nat := 0
  opened : Bool := false
  closed : Bool := false
  percent : Bool := false
  endsInAt : Bool := false

/-- Takes up a character of an authority, if it may stand there. Colons and percent signs count from the last bracket or
at sign on. -/
def Scan.push (s : Scan) (c : Char) : Option Scan :=
  let s := { s with endsInAt := false }
  if c = '%' then some { s with percent := true }
  else if !isAuthorityChar c then none
  else if c = ':' then if s.colons ≥ 8 then none else some { s with colons := s.colons + 1 }
  else if c = '[' then if s.percent || s.opened then none else some { s with opened := true }
  else if c = ']' then
    if !s.opened || s.closed then none else some { s with closed := true, colons := 0, percent := false }
  else if c = '@' then some { s with colons := 0, percent := false, endsInAt := true }
  else some s

def isAuthority (s : List Char) : Bool :=
  match s.foldlM Scan.push {} with
  | none => false
  | some seen => seen.opened == seen.closed && seen.colons ≤ 1 && !seen.endsInAt && !seen.percent

def endsAuthority (c : Char) : Bool := c == '/' || c == '?' || c == '#'

def isPath (s : List Char) : Bool :=
  let (path, rest) := (s.takeWhile (· != '#')).span (· != '?')
  path.all isPathChar && (rest.drop 1).all isQueryChar

/-- The scheme in front of `://`, and what follows; longer schemes than there may be are refused with `none`. -/
def splitScheme (s : List Char) : Option (Option (List Char) × List Char) :=
  match s.span isSchemeChar with
  | (scheme, ':' :: '/' :: '/' :: rest) => if scheme.length > maxScheme then none else some (some scheme, rest)
  | _ => some (none, s)

/-- Whether a text is an address: a path alone, an authority alone, or a scheme with an authority and a path. -/
def isValid (s : List Char) : Bool :=
  if (Text.Utf8.encode s).length > maxLength then false
  else match s with
    | [] => false
    | '/' :: _ => isPath s
    | ['*'] => true
    | _ =>
      match splitScheme s with
      | none => false
      | some (none, rest) => !(rest.any endsAuthority) && isAuthority rest
      | some (some _, rest) =>
        let (authority, path) := rest.span (!endsAuthority ·)
        !authority.isEmpty && isAuthority authority && isPath path

end Uri

/-! ### Calls -/

structure GrpcTarget where
  addr : String
deriving DecidableEq, Repr

/-- What the target asks the service. A subscription names no start and no account. -/
inductive GrpcRequest where
  | getBalance (account : String)
  | streamTransactions (sinceTimestamp : String) (rateLimit : Nat) (filterAccount : String)
deriving DecidableEq, Repr

structure GrpcTransaction where
  txId : String
  fromAccount : String
  toAccount : String
  amountTinybar : Int
  txType : String
  timestamp : String
deriving DecidableEq, Repr

def TransactionEvent.ofMessage (m : GrpcTransaction) : TransactionEvent where
  txId := m.txId
  sender := m.fromAccount
  receiver := m.toAccount
  amount := m.amountTinybar
  kind := m.txType
  timestamp := m.timestamp

namespace GrpcTarget

def ofText (addr : String) : Except TargetError GrpcTarget :=
  if Uri.isValid addr.toList then .ok ⟨addr⟩ else .error (.transport "invalid URI")

def unreachable : GrpcStatus := ⟨.unavailable, "error trying to connect: tcp connect error: Connection refused (os error 111)"⟩

def balanceRequest (account : String) : GrpcRequest := .getBalance account

def streamRequest (rate : Nat) : GrpcRequest := .streamTransactions "" (min rate 0x7FFFFFFF) ""

/-- What comes of the reply to a balance request. A call that ends well has to bring a message. -/
def balanceResult (reply : Except GrpcStatus Unit) : Except TargetError Unit :=
  match reply with
  | .ok () => .ok ()
  | .error s => .error (.grpc (if s.code = .ok then ⟨.internal, "Missing response message."⟩ else s))

def taken (messages : List (Except GrpcStatus GrpcTransaction)) : List (Except GrpcStatus TransactionEvent) :=
  messages.map fun m => m.map TransactionEvent.ofMessage

def itemsOf : List (Except GrpcStatus TransactionEvent) → List EventStream.Item
  | [] => []
  | .ok e :: rest => .ok e :: itemsOf rest
  | .error s :: _ => if s.code = .ok then [] else [.error (.grpc s)]

def streamResult (reply : Except GrpcStatus (List (Except GrpcStatus TransactionEvent))) :
    Except TargetError (List EventStream.Item) :=
  match reply with
  | .ok items => .ok (itemsOf items)
  | .error s => if s.code = .ok then .ok [] else .error (.grpc s)

end GrpcTarget

end LedgerLoad
