import LedgerLoad.EventStream.Decoder
import LedgerLoad.Text.Charset
import LedgerLoad.Url.Parse

/-!
A ledger service reached over its REST interface.

A balance is asked for at `api/v1/accounts/` and so on below the base URL, a subscription at
`api/v1/transactions/stream`. The segments of these paths are appended to those of the base, and what would divide
segments is encoded.
-/

set_option autoImplicit false

namespace LedgerLoad

namespace Url

/-- A path without an empty segment at its end; the path of a lone slash stays. -/
def popIfEmpty (path : List (List Char)) : List (List Char) :=
  if path.length > 1 ∧ path.getLast? = some [] then path.dropLast else path

/-- Appends a segment. A lone dot or two are no segment; dots that come out once blanks are dropped go where dots
go in a path. -/
def pushSegment (special file : Bool) (path : List (List Char)) (segment : List Char) : List (List Char) :=
  if segment = ['.'] ∨ segment = ['.', '.'] then path
  else
    let stem := if path = [[]] then [] else path
    let set := if special then Text.Percent.specialSegmentSet else Text.Percent.segmentSet
    let encoded := Text.Percent.encode set (segment.filter (!isDropped ·))
    let path := match dotted? encoded with
      | some 1 => stem ++ [[]]
      | some 2 => shorten file stem ++ [[]]
      | _ => stem ++ [encoded]
    if file then dropLeading path else path

def extend (u : Url) (segments : List String) : Url :=
  match u.path with
  | .blob _ => u
  | .segments path =>
    let file := u.scheme = "file"
    { u with path := .segments ((segments.map String.toList).foldl (pushSegment (isSpecial u.scheme) file) (popIfEmpty path)) }

/-- The URL with a name and a value appended to its query, neither of which needs encoding. -/
def appendPair (u : Url) (name value : String) : Url :=
  let pair := name.toList ++ '=' :: value.toList
  { u with query := some (match u.query with
      | some (c :: q) => c :: q ++ '&' :: pair
      | _ => pair) }

end Url

structure RestTarget where
  base : Url
deriving DecidableEq, Repr

structure RestRequest where
  url : Url
  accept : String
deriving DecidableEq, Repr

def RestRequest.line (r : RestRequest) : String :=
  "GET " ++ { r.url with username := [], password := [], fragment := none }.text ++ " HTTP/1.1"

/-- A response whose body arrives in chunks; the connection may break after them. -/
structure RestResponse where
  status : Nat := 200
  contentType : Option String := none
  body : List (List UInt8) := []
  cutOff : Option String := none
deriving DecidableEq, Repr

namespace RestResponse

/-- The body of a response that declares its length: nothing beyond it counts, and it is cut off if it is shorter. -/
def limited (length : Nat) : List (List UInt8) → List (List UInt8) × Bool
  | [] => ([], length ≠ 0)
  | chunk :: rest =>
    let (kept, short) := limited (length - chunk.length) rest
    (chunk.take length :: kept, short)

def isSuccess (r : RestResponse) : Bool := 200 ≤ r.status && r.status < 300

def text (r : RestResponse) : String :=
  if r.cutOff.isSome then ""
  else String.ofList ((Text.charsetOf r.contentType).decodeMarked r.body.flatten)

def check (r : RestResponse) : Except TargetError RestResponse :=
  if r.isSuccess then .ok r else .error (.status r.status r.text)

end RestResponse

namespace RestTarget

def ofText (base : String) : Except TargetError RestTarget :=
  match Url.parse base with
  | .error e => .error (.url e)
  | .ok u => if u.canBeBase then .ok ⟨u⟩ else .error (.url .cannotBeBase)

def endpoint (t : RestTarget) (segments : List String) : Url := t.base.extend segments

def balanceRequest (t : RestTarget) (account : String) : RestRequest :=
  ⟨t.endpoint ["api", "v1", "accounts", account, "balance"], "*/*"⟩

def streamRequest (t : RestTarget) (rate : Nat) : RestRequest :=
  let url := t.endpoint ["api", "v1", "transactions", "stream"]
  ⟨if rate > 0 then url.appendPair "rate" (toString rate) else url, "text/event-stream"⟩

/-- What comes of a response to a balance request, or of the failure to get one. The body is read and not looked at. -/
def balanceResult (answer : Except String RestResponse) : Except TargetError Unit :=
  match answer with
  | .error reason => .error (.http reason)
  | .ok r => do
    let r ← r.check
    match r.cutOff with
    | some reason => throw (.http reason)
    | none => return ()

/-- What comes of a response to a subscription: the items, or `none` for a panic of the decoder. -/
def streamResult (answer : Except String RestResponse) : Except TargetError (Option (List EventStream.Item)) :=
  match answer with
  | .error reason => .error (.http reason)
  | .ok r => do
    let r ← r.check
    return EventStream.items r.body r.cutOff

end RestTarget

end LedgerLoad
