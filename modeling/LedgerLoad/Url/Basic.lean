import LedgerLoad.Url.Address

/-!
URLs in their parts, and their text.
-/

set_option autoImplicit false

namespace LedgerLoad

inductive Url.Host where
  | name (text : List Char)
  | ipv4 (address : Nat)
  | ipv6 (pieces : List Nat)
deriving DecidableEq, Repr

/-- The path is one text that means nothing to the URL, or a list of segments. -/
inductive Url.Path where
  | blob (text : List Char)
  | segments (items : List (List Char))
deriving DecidableEq, Repr

structure Url where
  scheme : String
  username : List Char := []
  password : List Char := []
  /-- `none` if the URL has no authority. -/
  host : Option Url.Host := none
  port : Option Nat := none
  path : Url.Path
  query : Option (List Char) := none
  fragment : Option (List Char) := none
deriving DecidableEq, Repr

namespace Url

def specialPorts : List (String × Option Nat) :=
  [("http", some 80), ("https", some 443), ("ws", some 80), ("wss", some 443), ("ftp", some 21), ("file", none)]

def isSpecial (scheme : String) : Bool := (specialPorts.lookup scheme).isSome

def defaultPort (scheme : String) : Option Nat := (specialPorts.lookup scheme).join

def Host.text : Host → List Char
  | .name t => t
  | .ipv4 a => ipv4Text a
  | .ipv6 ps => '[' :: ipv6Text ps ++ [']']

def segmentsText (items : List (List Char)) : List Char := items.flatMap ('/' :: ·)

def Path.text : Path → List Char
  | .blob t => t
  | .segments items => segmentsText items

def authorityText (u : Url) (h : Host) : List Char :=
  let password := if u.password.isEmpty then [] else ':' :: u.password
  let user := if u.username.isEmpty && u.password.isEmpty then [] else u.username ++ password ++ ['@']
  let port := match u.port with
    | some p => ':' :: Text.decimal p
    | none => []
  user ++ h.text ++ port

/-- Two slashes at the front of a path must not read as an authority; a dot segment keeps them apart. -/
def guardText : Path → List Char
  | .segments ([] :: _ :: _) => ['/', '.']
  | _ => []

def upToPath (u : Url) : List Char :=
  u.scheme.toList ++ ':' :: (match u.host with
    | some h => '/' :: '/' :: u.authorityText h
    | none => guardText u.path) ++ u.path.text

def queryText (u : Url) : List Char :=
  match u.query with
  | some q => '?' :: q
  | none => []

def fragmentText (u : Url) : List Char :=
  match u.fragment with
  | some f => '#' :: f
  | none => []

def text (u : Url) : String := String.ofList (u.upToPath ++ u.queryText ++ u.fragmentText)

def canBeBase (u : Url) : Bool :=
  match u.path with
  | .segments _ => true
  | .blob _ => false

end Url

end LedgerLoad
