import LedgerLoad.Cli.SocketAddress
import LedgerLoad.Config
import LedgerLoad.Text.Number
import LedgerLoad.Time.Parse

/-!
The command line: options with a value, switches without one, and nothing else.

Arguments are taken up from left to right. A value in an argument of its own is read no sooner than the next option
begins or the line ends, so an argument that no option has is reported first. Every option may be given once.
-/

set_option autoImplicit false

namespace LedgerLoad.Cli

structure Args where
  scenario : Scenario := .balance
  protocol : Protocol := .grpc
  concurrency : Nat := 10
  duration : Span := Span.ofSecs 30
  rate : Nat := 0
  grpcAddr : String := "http://localhost:50051"
  restAddr : String := "http://localhost:8080"
  dbHost : String := "localhost"
  dbPort : Nat := 5432
  dbUser : String := "benchmark"
  dbPassword : String := "benchmark_pass"
  dbName : String := "grpc_benchmark"
  json : Option String := none
  noStore : Bool := false
  metricsAddr : Option SocketAddress := none
deriving DecidableEq, Repr

namespace Args

def workload (a : Args) : WorkloadConfig := ⟨a.scenario, a.concurrency, a.duration, a.rate⟩

def dbConfig (a : Args) : DbConfig :=
  { host := a.dbHost, port := a.dbPort, user := a.dbUser, password := a.dbPassword, database := a.dbName }

end Args

inductive Setting where
  | scenario
  | protocol
  | concurrency
  | duration
  | rate
  | grpcAddr
  | restAddr
  | dbHost
  | dbPort
  | dbUser
  | dbPassword
  | dbName
  | json
  | metricsAddr
deriving DecidableEq, Repr

inductive Switch where
  | noStore
  | help
  | version
deriving DecidableEq, Repr

inductive Opt where
  | setting (s : Setting)
  | switch (s : Switch)
deriving DecidableEq, Repr

def Setting.name : Setting → String
  | .scenario => "scenario"
  | .protocol => "protocol"
  | .concurrency => "concurrency"
  | .duration => "duration"
  | .rate => "rate"
  | .grpcAddr => "grpc-addr"
  | .restAddr => "rest-addr"
  | .dbHost => "db-host"
  | .dbPort => "db-port"
  | .dbUser => "db-user"
  | .dbPassword => "db-pass"
  | .dbName => "db-name"
  | .json => "json"
  | .metricsAddr => "metrics-addr"

def Switch.name : Switch → String
  | .noStore => "no-store"
  | .help => "help"
  | .version => "version"

namespace Opt

def name : Opt → String
  | .setting s => s.name
  | .switch s => s.name

def letter : Opt → Option Char
  | .switch .help => some 'h'
  | .switch .version => some 'V'
  | _ => none

def all : List Opt :=
  [.setting .scenario, .setting .protocol, .setting .concurrency, .setting .duration, .setting .rate,
    .setting .grpcAddr, .setting .restAddr, .setting .dbHost, .setting .dbPort, .setting .dbUser,
    .setting .dbPassword, .setting .dbName, .setting .json, .switch .noStore, .setting .metricsAddr, .switch .help,
    .switch .version]

def named? (name : String) : Option Opt := all.find? (·.name == name)

def lettered? (letter : Char) : Option Opt := all.find? (·.letter == some letter)

def usage (o : Opt) : String :=
  match o with
  | .setting s => "--" ++ s.name ++ " <" ++ (s.name.map fun c => if c = '-' then '_' else c.toUpper) ++ ">"
  | .switch s => "--" ++ s.name

end Opt

/-! ### Values -/

inductive Refusal where
  | name (why : UnknownName)
  | duration (why : DurationError)
  | number (why : Text.NumberFault)
  | noWorker
  | outOfRange (value : Int) (most : Nat)
  | socketAddress
deriving DecidableEq, Repr

def Refusal.message : Refusal → String
  | .name why => why.message
  | .duration why => why.message
  | .number why => why.message
  | .noWorker => "number would be zero for non-zero type"
  | .outOfRange value most => toString value ++ " is not in 0..=" ++ toString most
  | .socketAddress => "invalid socket address syntax"

inductive UsageError where
  | invalid (option : Setting) (value : String) (why : Refusal)
  | missing (option : Setting)
  | repeated (option : Opt)
  | unexpected (argument : String)
  | superfluous (option : Switch) (value : String)
deriving DecidableEq, Repr

def UsageError.message : UsageError → String
  | .invalid s value why =>
    "error: invalid value '" ++ value ++ "' for '" ++ (Opt.setting s).usage ++ "': " ++ why.message
  | .missing s => "error: a value is required for '" ++ (Opt.setting s).usage ++ "' but none was supplied"
  | .repeated o => "error: the argument '" ++ o.usage ++ "' cannot be used multiple times"
  | .unexpected argument => "error: unexpected argument '" ++ argument ++ "' found"
  | .superfluous s value =>
    "error: unexpected value '" ++ value ++ "' for '" ++ (Opt.switch s).usage ++ "' found; no more were expected"

inductive Leave where
  | help
  | version
  | refused (why : UsageError)
deriving DecidableEq, Repr

def numberIn (most : Nat) (value : String) : Except Refusal Nat :=
  match Text.parseInteger value.toList with
  | .error fault => .error (.number fault)
  | .ok n => if 0 ≤ n ∧ n ≤ most then .ok n.toNat else .error (.outOfRange n most)

def workers (value : String) : Except Refusal Nat :=
  match Text.parseNumber 0xFFFFFFFFFFFFFFFF value.toList with
  | .error fault => .error (.number fault)
  | .ok 0 => .error .noWorker
  | .ok n => .ok n

def socketAddress (value : String) : Except Refusal SocketAddress :=
  match SocketAddress.parse value.toList with
  | some address => .ok address
  | none => .error .socketAddress

def Setting.assign (s : Setting) (a : Args) (value : String) : Except UsageError Args :=
  let put {α : Type} (r : Except Refusal α) (f : α → Args) : Except UsageError Args :=
    match r with
    | .ok x => .ok (f x)
    | .error why => .error (.invalid s value why)
  match s with
  | .scenario => put ((Scenario.parse value).mapError .name) fun x => { a with scenario := x }
  | .protocol => put ((Protocol.parse value).mapError .name) fun x => { a with protocol := x }
  | .concurrency => put (workers value) fun x => { a with concurrency := x }
  | .duration => put ((Span.parse value).mapError .duration) fun x => { a with duration := x }
  | .rate => put (numberIn 0xFFFFFFFF value) fun x => { a with rate := x }
  | .grpcAddr => .ok { a with grpcAddr := value }
  | .restAddr => .ok { a with restAddr := value }
  | .dbHost => .ok { a with dbHost := value }
  | .dbPort => put (numberIn 0xFFFF value) fun x => { a with dbPort := x }
  | .dbUser => .ok { a with dbUser := value }
  | .dbPassword => .ok { a with dbPassword := value }
  | .dbName => .ok { a with dbName := value }
  | .json => if value.isEmpty then .error (.missing .json) else .ok { a with json := some value }
  | .metricsAddr => put (socketAddress value) fun x => { a with metricsAddr := some x }

/-! ### The line -/

inductive Shape where
  /-- Two dashes alone: no options come after them. -/
  | escape
  | long (name : String) (value : Option String)
  | short (letter : Char)
  | plain
deriving DecidableEq, Repr

def Shape.of (argument : String) : Shape :=
  match argument.toList with
  | ['-', '-'] => .escape
  | '-' :: '-' :: cs =>
    let name := String.ofList (cs.takeWhile (· != '='))
    match cs.dropWhile (· != '=') with
    | _ :: value => .long name (some (String.ofList value))
    | [] => .long name none
  | '-' :: c :: _ => .short c
  | _ => .plain

structure Progress where
  args : Args := {}
  given : List Opt := []
  /-- The option whose value has not been looked at, with the value, if that has come. -/
  pending : Option (Setting × Option String) := none

namespace Progress

def note (p : Progress) (o : Opt) : Except Leave Progress :=
  if o ∈ p.given then .error (.refused (.repeated o)) else .ok { p with given := o :: p.given }

def assign (p : Progress) (s : Setting) (value : String) : Except Leave Progress :=
  match p.note (.setting s) with
  | .error e => .error e
  | .ok p =>
    match s.assign p.args value with
    | .error why => .error (.refused why)
    | .ok args => .ok { p with args := args }

def settle (p : Progress) : Except Leave Progress :=
  match p.pending with
  | none => .ok p
  | some (s, none) => .error (.refused (.missing s))
  | some (s, some value) => { p with pending := none }.assign s value

def press (p : Progress) (s : Switch) : Except Leave Progress :=
  match s with
  | .help => .error .help
  | .version => .error .version
  | .noStore => (p.note (.switch .noStore)).map fun p => { p with args := { p.args with noStore := true } }

def take (p : Progress) (o : Opt) (value : Option String) : Except Leave Progress :=
  match o, value with
  | .switch s, some value => .error (.refused (.superfluous s value))
  | .switch s, none => p.settle.bind (·.press s)
  | .setting s, some value => p.settle.bind (·.assign s value)
  | .setting s, none => p.settle.map fun p => { p with pending := some (s, none) }

/-- Takes up one argument that is not two dashes alone. -/
def step (p : Progress) (argument : String) : Except Leave Progress :=
  let unexpected (text : String) : Except Leave Progress := .error (.refused (.unexpected text))
  match Shape.of argument with
  | .long name value =>
    match Opt.named? name with
    | some o => p.take o value
    | none => unexpected ("--" ++ name)
  | .short letter =>
    match Opt.lettered? letter with
    | some o => p.take o none
    | none => unexpected ("-" ++ String.singleton letter)
  | _ =>
    match p.pending with
    | some (s, none) => .ok { p with pending := some (s, some argument) }
    | _ => unexpected argument

def scan (p : Progress) : List String → Except Leave Progress
  | [] => p.settle
  | argument :: rest =>
    match Shape.of argument, rest with
    | .escape, [] => p.settle
    | .escape, next :: _ => .error (.refused (.unexpected next))
    | _, rest => (p.step argument).bind (·.scan rest)

end Progress

def Args.parse (line : List String) : Except Leave Args := (Progress.scan {} line).map (·.args)

end LedgerLoad.Cli
