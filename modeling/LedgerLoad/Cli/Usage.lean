import LedgerLoad.Cli.Args

/-!
The texts of the command line about itself: help, version, and what is printed where a line is refused.
-/

set_option autoImplicit false

namespace LedgerLoad.Cli

def programName : String := "ledgerbench"

def purpose : String := "Benchmark a ledger service's balance queries or transaction stream"

namespace Opt

def about : Opt → String
  | .setting .scenario => "Request pattern: `balance` or `stream`"
  | .setting .protocol => "Transport: `grpc` or `rest`"
  | .setting .concurrency => "Number of concurrent workers"
  | .setting .duration => "Run length, e.g. `30`, `30s`, `5m` or `1h`"
  | .setting .rate => "Events per second requested from the server for streaming runs. `0` for unbounded"
  | .setting .json => "Also write the full report, samples included, to this file"
  | .setting .metricsAddr => "Serve Prometheus metrics on this address while running"
  | .setting _ => ""
  | .switch .noStore => "Do not persist the run to the results database"
  | .switch .help => "Print help"
  | .switch .version => "Print version"

def default? : Opt → Option String
  | .setting .scenario => some (Args.scenario {}).name
  | .setting .protocol => some (Args.protocol {}).name
  | .setting .concurrency => some (toString (Args.concurrency {}))
  | .setting .duration => some "30s"
  | .setting .rate => some (toString (Args.rate {}))
  | .setting .grpcAddr => some (Args.grpcAddr {})
  | .setting .restAddr => some (Args.restAddr {})
  | .setting .dbHost => some (Args.dbHost {})
  | .setting .dbPort => some (toString (Args.dbPort {}))
  | .setting .dbUser => some (Args.dbUser {})
  | .setting .dbPassword => some (Args.dbPassword {})
  | .setting .dbName => some (Args.dbName {})
  | _ => none

def synopsis (o : Opt) : String :=
  (match o.letter with
    | some c => "  -" ++ String.singleton c ++ ", "
    | none => "      ") ++ o.usage

def explanation (o : Opt) : String :=
  " ".intercalate ([o.about, (o.default?.map fun d => "[default: " ++ d ++ "]").getD ""].filter (!·.isEmpty))

def columnWidth : Nat := all.foldl (fun n o => max n (synopsis o).length) 0 + 2

def helpLine (o : Opt) : String :=
  o.synopsis ++ String.ofList (List.replicate (columnWidth - o.synopsis.length) ' ') ++ o.explanation

end Opt

def helpLines : List String :=
  [purpose, "", "Usage: " ++ programName ++ " [OPTIONS]", "", "Options:"] ++ Opt.all.map Opt.helpLine

def versionLine : String := programName ++ " 0.1.0"

namespace Leave

def lines : Leave → List String
  | .help => helpLines
  | .version => [versionLine]
  | .refused why => [why.message, "", "For more information, try '--help'."]

def exitCode : Leave → Nat
  | .refused _ => 2
  | _ => 0

end Leave

end LedgerLoad.Cli
