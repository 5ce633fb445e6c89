import LedgerLoad.Text.Quoted
import LedgerLoad.Json.Reader

/-!
What can go wrong with one call, with a worker, with a run, and with the results database.
-/

set_option autoImplicit false

namespace LedgerLoad

inductive GrpcCode where
  | ok
  | cancelled
  | unknown
  | invalidArgument
  | deadlineExceeded
  | notFound
  | alreadyExists
  | permissionDenied
  | resourceExhausted
  | failedPrecondition
  | aborted
  | outOfRange
  | unimplemented
  | internal
  | unavailable
  | dataLoss
  | unauthenticated
deriving DecidableEq, Repr, Inhabited

namespace GrpcCode

def all : List GrpcCode :=
  [.ok, .cancelled, .unknown, .invalidArgument, .deadlineExceeded, .notFound, .alreadyExists, .permissionDenied,
    .resourceExhausted, .failedPrecondition, .aborted, .outOfRange, .unimplemented, .internal, .unavailable,
    .dataLoss, .unauthenticated]

def ofNumber (n : Int) : GrpcCode := if n < 0 then .unknown else (all[n.toNat]?).getD .unknown

def name : GrpcCode → String
  | .ok => "Ok"
  | .cancelled => "Cancelled"
  | .unknown => "Unknown"
  | .invalidArgument => "InvalidArgument"
  | .deadlineExceeded => "DeadlineExceeded"
  | .notFound => "NotFound"
  | .alreadyExists => "AlreadyExists"
  | .permissionDenied => "PermissionDenied"
  | .resourceExhausted => "ResourceExhausted"
  | .failedPrecondition => "FailedPrecondition"
  | .aborted => "Aborted"
  | .outOfRange => "OutOfRange"
  | .unimplemented => "Unimplemented"
  | .internal => "Internal"
  | .unavailable => "Unavailable"
  | .dataLoss => "DataLoss"
  | .unauthenticated => "Unauthenticated"

end GrpcCode

structure GrpcStatus where
  code : GrpcCode
  message : String
deriving DecidableEq, Repr

def GrpcStatus.text (s : GrpcStatus) : String :=
  "status: " ++ s.code.name ++ ", message: " ++ Text.quote s.message ++
    ", details: [], metadata: MetadataMap \x7b headers: \x7b\x7d \x7d"

def statusPhrases : List (Nat × String) := [
  (100, "Continue"), (101, "Switching Protocols"), (102, "Processing"),
  (200, "OK"), (201, "Created"), (202, "Accepted"), (203, "Non Authoritative Information"), (204, "No Content"),
  (205, "Reset Content"), (206, "Partial Content"), (207, "Multi-Status"), (208, "Already Reported"),
  (226, "IM Used"),
  (300, "Multiple Choices"), (301, "Moved Permanently"), (302, "Found"), (303, "See Other"),
  (304, "Not Modified"), (305, "Use Proxy"), (307, "Temporary Redirect"), (308, "Permanent Redirect"),
  (400, "Bad Request"), (401, "Unauthorized"), (402, "Payment Required"), (403, "Forbidden"),
  (404, "Not Found"), (405, "Method Not Allowed"), (406, "Not Acceptable"),
  (407, "Proxy Authentication Required"), (408, "Request Timeout"), (409, "Conflict"), (410, "Gone"),
  (411, "Length Required"), (412, "Precondition Failed"), (413, "Payload Too Large"), (414, "URI Too Long"),
  (415, "Unsupported Media Type"), (416, "Range Not Satisfiable"), (417, "Expectation Failed"),
  (418, "I'm a teapot"), (421, "Misdirected Request"), (422, "Unprocessable Entity"), (423, "Locked"),
  (424, "Failed Dependency"), (426, "Upgrade Required"), (428, "Precondition Required"),
  (429, "Too Many Requests"), (431, "Request Header Fields Too Large"), (451, "Unavailable For Legal Reasons"),
  (500, "Internal Server Error"), (501, "Not Implemented"), (502, "Bad Gateway"), (503, "Service Unavailable"),
  (504, "Gateway Timeout"), (505, "HTTP Version Not Supported"), (506, "Variant Also Negotiates"),
  (507, "Insufficient Storage"), (508, "Loop Detected"), (510, "Not Extended"),
  (511, "Network Authentication Required")]

def statusText (code : Nat) : String :=
  toString code ++ " " ++ (statusPhrases.lookup code).getD "<unknown status code>"

inductive UrlFault where
  | emptyHost
  | badDomain
  | badPort
  | badIpv4
  | badIpv6
  | badDomainCharacter
  | noBase
  | cannotBeBase
deriving DecidableEq, Repr

def UrlFault.text : UrlFault → String
  | .emptyHost => "empty host"
  | .badDomain => "invalid international domain name"
  | .badPort => "invalid port number"
  | .badIpv4 => "invalid IPv4 address"
  | .badIpv6 => "invalid IPv6 address"
  | .badDomainCharacter => "invalid domain character"
  | .noBase => "relative URL without a base"
  | .cannotBeBase => "relative URL with a cannot-be-a-base base"

/-- A call or a read of a stream that failed. What the transport itself reports is kept as text. -/
inductive TargetError where
  | http (reason : String)
  | status (code : Nat) (body : String)
  | stream (message : String)
  | framing (message : String)
  | grpc (status : GrpcStatus)
  | transport (reason : String)
  | decode (fault : Json.Fault)
  | url (fault : UrlFault)
deriving DecidableEq, Repr

def payloadText : Json.Fault → String
  | .truncated => "EOF while parsing a value"
  | .malformed => "expected value"
  | .rejected why => why.detail.getD "invalid value"

namespace TargetError

def message : TargetError → String
  | .http reason => "HTTP request failed: " ++ reason
  | .status code body => "Server responded with " ++ statusText code ++ ": " ++ body
  | .stream message => "Stream error: " ++ message
  | .framing message => "Malformed event stream: " ++ message
  | .grpc s => "gRPC call failed: " ++ s.text
  | .transport reason => "gRPC transport error: " ++ reason
  | .decode fault => "Malformed event payload: " ++ payloadText fault
  | .url fault => "Invalid target URL: " ++ fault.text

def source : TargetError → Option String
  | .http reason => some reason
  | .grpc s => some s.text
  | .transport reason => some reason
  | .decode fault => some (payloadText fault)
  | .url fault => some fault.text
  | _ => none

end TargetError

inductive WorkerError where
  /-- The worker's task was lost, by a panic in a call or otherwise. -/
  | lost (panicked : Bool)
  /-- State shared between workers was left behind by a panic. -/
  | poisoned
deriving DecidableEq, Repr

def WorkerError.message : WorkerError → String
  | .lost panicked => "Worker task failed to complete: task " ++ (if panicked then "panicked" else "was cancelled")
  | .poisoned => "Shared worker state is poisoned"

inductive RunnerError where
  | noAccounts
  | alreadyStarted
  | worker (fault : WorkerError)
deriving DecidableEq, Repr

def RunnerError.message : RunnerError → String
  | .noAccounts => "No account identifiers available for the balance scenario"
  | .alreadyStarted => "Runner has already been started"
  | .worker fault => "Worker fault: " ++ fault.message

def RunnerError.source : RunnerError → Option String
  | .worker fault => some fault.message
  | _ => none

/-- The dependency could not be reached within the budget of retries; the cause is that of the last attempt. -/
structure ConnectionError where
  retries : Nat
  source : String
deriving DecidableEq, Repr

def ConnectionError.message (e : ConnectionError) : String :=
  "Failed to connect after " ++ toString e.retries ++ " retries: " ++ e.source

inductive DatabaseError where
  | notConnected
  | connection (e : ConnectionError)
  | query (cause : String)
deriving DecidableEq, Repr

def DatabaseError.message : DatabaseError → String
  | .notConnected => "Database not connected. Call connect() first."
  | .connection e => e.message
  | .query cause => "Query failed: " ++ cause

def DatabaseError.source : DatabaseError → Option String
  | .notConnected => none
  | .connection e => some e.source
  | .query cause => some cause

end LedgerLoad
