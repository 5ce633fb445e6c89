import LedgerLoad.Error
import LedgerLoad.Text.Percent
import LedgerLoad.Url.Basic
import LedgerLoad.Url.Domain

/-!
Reading a URL that stands alone, as the URL standard reads it.

Tabs and line ends are dropped wherever they are. What may not stand for itself is percent-encoded, dots are taken out
of the path, the host of a special scheme is brought to ASCII, and a usual port is left out.
-/

set_option autoImplicit false

namespace LedgerLoad.Url

open Text (isDigit digitsValue)

def isEdge (c : Char) : Bool := c.toNat ≤ 32

def isDropped (c : Char) : Bool := c == '\t' || c == '\n' || c == '\r'

def clean (s : List Char) : List Char :=
  (((s.dropWhile isEdge).reverse.dropWhile isEdge).reverse).filter (!isDropped ·)

def isSchemeChar (c : Char) : Bool := c.isAlphanum || c == '+' || c == '-' || c == '.'

def splitScheme (s : List Char) : Option (String × List Char) :=
  match s with
  | [] => none
  | c :: _ =>
    if c.isAlpha then
      match s.span isSchemeChar with
      | (name, ':' :: rest) => some (String.ofList (name.map Char.toLower), rest)
      | _ => none
    else none

def isSlash (special : Bool) (c : Char) : Bool := c == '/' || (special && c == '\\')

def endsAuthority (special : Bool) (c : Char) : Bool := isSlash special c || c == '?' || c == '#'

def splitLastAt (s : List Char) : Option (List Char × List Char) :=
  match s.reverse.span (· != '@') with
  | (after, _ :: before) => some (before.reverse, after.reverse)
  | _ => none

def splitHost : Bool → List Char → List Char × List Char
  | _, [] => ([], [])
  | inside, c :: r =>
    if c == ':' && !inside then ([], c :: r)
    else
      let (host, rest) := splitHost (if c == '[' then true else if c == ']' then false else inside) r
      (c :: host, rest)

def isForbiddenInHost (c : Char) : Bool := c.toNat == 0 || "\t\n\r #/:<>?@[\\]^|".toList.contains c

def parseBracketed (s : List Char) : Except UrlFault Host :=
  match s.reverse with
  | ']' :: inner =>
    match parseIpv6 inner.reverse with
    | some ps => .ok (.ipv6 ps)
    | none => .error .badIpv6
  | _ => .error .badIpv6

/-- The host of a special scheme: percent-decoded, in ASCII, and an address if it ends like one. -/
def parseHost (s : List Char) : Except UrlFault Host :=
  match s with
  | '[' :: r => parseBracketed r
  | _ =>
    match (Text.Utf8.decode? (Text.Percent.decode s)).bind asciiName? with
    | none => .error .badDomain
    | some [] => .error .emptyHost
    | some name =>
      if endsInNumber name then
        match parseIpv4 name with
        | some a => .ok (.ipv4 a)
        | none => .error .badIpv4
      else .ok (.name name)

def parseOpaqueHost (s : List Char) : Except UrlFault Host :=
  match s with
  | '[' :: r => parseBracketed r
  | _ =>
    if s.any isForbiddenInHost then .error .badDomainCharacter
    else .ok (.name (Text.Percent.encode Text.Percent.isControl s))

/-- The port after its colon, none if it is the usual one. -/
def parsePort (usual : Option Nat) (s : List Char) : Except UrlFault (Option Nat) :=
  if s.all isDigit then
    let n := digitsValue s
    if s.isEmpty then .ok none
    else if n > 65535 then .error .badPort
    else .ok (if some n = usual then none else some n)
  else .error .badPort

/-! ### Paths -/

def dotted? : List Char → Option Nat
  | [] => some 0
  | '.' :: r => (dotted? r).map (· + 1)
  | '%' :: '2' :: 'e' :: r => (dotted? r).map (· + 1)
  | '%' :: '2' :: 'E' :: r => (dotted? r).map (· + 1)
  | _ => none

def isDriveLetter : List Char → Bool
  | [a, b] => a.isAlpha && (b == ':' || b == '|')
  | _ => false

/-- Removes the last segment, but not a drive letter at the root of a file. -/
def shorten (file : Bool) (path : List (List Char)) : List (List Char) :=
  match path with
  | [only] => if file && isDriveLetter only then path else []
  | _ => path.dropLast

/-- Appends a segment to a path: one dot stays where the path is, two go back, and at the end of the path both leave an
empty segment. -/
def step (file : Bool) (path : List (List Char)) (segment : List Char) (last : Bool) : List (List Char) :=
  match dotted? segment with
  | some 1 => if last then path ++ [[]] else path
  | some 2 => if last then shorten file path ++ [[]] else shorten file path
  | _ =>
    match file && path.isEmpty && isDriveLetter segment, segment with
    | true, c :: _ => [[c, ':']]
    | _, _ => path ++ [segment]

def walk (file : Bool) : List (List Char) → List (List Char) → List (List Char)
  | path, [] => path
  | path, [segment] => step file path segment true
  | path, segment :: rest => walk file (step file path segment false) rest

def dropLeading (path : List (List Char)) : List (List Char) :=
  match path.dropWhile List.isEmpty with
  | [] => [[]]
  | rest => rest

def segmentsOf (special file : Bool) (s : List Char) : List (List Char) :=
  let path := walk file [] ((Text.splitOn (isSlash special) s).map (Text.Percent.encode Text.Percent.pathSet))
  if file then dropLeading path else path

def pathAfterHost (special file : Bool) (s : List Char) : List (List Char) :=
  match s with
  | [] => if special then [[]] else []
  | c :: r => if isSlash special c then segmentsOf special file r else segmentsOf special file s

/-! ### Whole URLs -/

def splitTail (special : Bool) (s : List Char) : List Char × Option (List Char) × Option (List Char) :=
  let (body, rest) := s.span (· != '#')
  let fragment := match rest with
    | _ :: f => some (Text.Percent.encode Text.Percent.fragmentSet f)
    | [] => none
  let (path, rest) := body.span (· != '?')
  let query := match rest with
    | _ :: q => some (Text.Percent.encode (if special then Text.Percent.specialQuerySet else Text.Percent.querySet) q)
    | [] => none
  (path, query, fragment)

def splitUser (s : List Char) : List Char × List Char :=
  let (user, rest) := s.span (· != ':')
  (Text.Percent.encode Text.Percent.userinfoSet user, Text.Percent.encode Text.Percent.userinfoSet (rest.drop 1))

def parseAuthority (scheme : String) (s : List Char) : Except UrlFault Url := do
  let special := isSpecial scheme
  let (authority, rest) := s.span (!endsAuthority special ·)
  let (user, place) ← match splitLastAt authority with
    | none => pure ([], authority)
    | some (user, place) =>
      if user.isEmpty && place.isEmpty && !rest.isEmpty then throw .emptyHost
      pure (user, place)
  let (hostText, portText) := splitHost false place
  if special && hostText.isEmpty then throw .emptyHost
  let host ← if special then parseHost hostText else parseOpaqueHost hostText
  let noHost := host == .name []
  if noHost && !portText.isEmpty then throw .emptyHost
  let port ← parsePort (defaultPort scheme) (portText.drop 1)
  let (username, password) := splitUser user
  if noHost && !(username.isEmpty && password.isEmpty) then throw .emptyHost
  let (path, query, fragment) := splitTail special rest
  return { scheme := scheme, username := username, password := password, host := some host, port := port
           path := .segments (pathAfterHost special false path), query := query, fragment := fragment }

def parseFileHost (s : List Char) : Except UrlFault Host :=
  if s.isEmpty then .ok (.name [])
  else do
    let host ← parseHost s
    return if host = .name "localhost".toList then .name [] else host

/-- A file URL after its colon. A drive letter is no host, and a path that begins with one has none. -/
def parseFile (s : List Char) : Except UrlFault Url := do
  let (body, query, fragment) := splitTail true s
  let make (host : Host) (path : List (List Char)) : Url :=
    let host := match path with
      | first :: _ => if isDriveLetter first then .name [] else host
      | [] => host
    { scheme := "file", host := some host, path := .segments path, query := query, fragment := fragment }
  match body with
  | a :: b :: r =>
    if isSlash true a && isSlash true b then
      let (hostText, path) := r.span (!isSlash true ·)
      if isDriveLetter hostText then return make (.name []) (segmentsOf true true r)
      else return make (← parseFileHost hostText) (pathAfterHost true true path)
    else return make (.name []) (pathAfterHost true true body)
  | _ => return make (.name []) (pathAfterHost true true body)

def parsePlain (scheme : String) (s : List Char) : Except UrlFault Url :=
  match s with
  | '/' :: '/' :: r => parseAuthority scheme r
  | _ =>
    let (body, query, fragment) := splitTail false s
    let path := match body with
      | '/' :: r => Path.segments (segmentsOf false false r)
      | _ => .blob (Text.Percent.encode Text.Percent.isControl body)
    .ok { scheme := scheme, path := path, query := query, fragment := fragment }

/-- A URL on its own; one without a scheme would need another to start from. -/
def parse (text : String) : Except UrlFault Url :=
  match splitScheme (clean text.toList) with
  | none => .error .noBase
  | some (scheme, rest) =>
    if scheme = "file" then parseFile rest
    else if isSpecial scheme then parseAuthority scheme (rest.dropWhile (isSlash true))
    else parsePlain scheme rest

end LedgerLoad.Url
