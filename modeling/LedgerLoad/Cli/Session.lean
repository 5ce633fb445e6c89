import LedgerLoad.Cli.Args
import LedgerLoad.Database.Session
import LedgerLoad.Rehearsal.Plan
import LedgerLoad.Report.Json
import LedgerLoad.Target.Client

/-!
The program from a command line that was accepted to its end: the results database is reached, the accounts are loaded,
the service is measured, and then the summary is printed, the report written and the run stored.

A failure before the measurement ends the program. Afterwards only a file that cannot be written keeps the run from being
stored, and a run that did not go well makes the program fail when all else is done.
-/

set_option autoImplicit false

namespace LedgerLoad.Cli

inductive Failure where
  | reported (message : String) (causes : List String)
  | crashed
deriving DecidableEq, Repr

namespace Failure

def ofDatabase (e : DatabaseError) : Failure := .reported e.message e.source.toList

def causeLines (causes : List String) : List String :=
  match causes with
  | [cause] => ["    " ++ cause]
  | causes => causes.zipIdx.map fun (cause, i) => "    " ++ toString i ++ ": " ++ cause

def lines : Failure → List String
  | .reported message [] => ["Error: " ++ message]
  | .reported message causes => ["Error: " ++ message, "", "Caused by:"] ++ causeLines causes
  | .crashed => ["thread 'main' panicked"]

def exitCode : Failure → Nat
  | .reported _ _ => 1
  | .crashed => 101

end Failure

structure Transcript where
  printed : List String := []
  file : Option (String × String) := none
  database : Database
  failure : Option Failure := none

def Transcript.exitCode (t : Transcript) : Nat := (t.failure.map Failure.exitCode).getD 0

def clientFor (a : Args) : Except Failure Client :=
  let (label, address) := match a.protocol with
    | .grpc => ("gRPC", a.grpcAddr)
    | .rest => ("REST", a.restAddr)
  (Client.ofText a.protocol address).mapError fun e =>
    .reported ("invalid " ++ label ++ " address " ++ address) (e.message :: e.source.toList)

/-- What comes of files that are to be written. -/
structure Files where
  refusal : String → Option String := fun _ => none
  /-- What is said of a report that has no written form. -/
  formless : String := "The year component cannot be formatted into the requested format."

/-- What the program meets outside itself. -/
structure Surroundings where
  database : DbServer
  service : Client → Rehearsal.Script
  readings : List Probe := []
  /-- When a shutdown signal comes, counted from the beginning of the run. -/
  shutdown : Option Nat := none
  files : Files := {}

/-! ### After the run -/

def percentilesLine (p : StoredPercentiles) : String :=
  "Database stats (benchmark_stats view): p50 " ++ Decimal.fixed 2 p.p50Ms ++ "ms, p90 " ++ Decimal.fixed 2 p.p90Ms ++
    "ms, p99 " ++ Decimal.fixed 2 p.p99Ms ++ "ms"

def storedLine (run : Int) : String := "Results stored (run_id=" ++ toString run ++ ")"

/-- Stores a report and prints the number of its run and its percentiles. What fails is passed over. -/
def store (server : DbServer) (report : RunReport) (t : Transcript) : Transcript :=
  match t.database.storeReport server report with
  | (db, .error _) => { t with database := db }
  | (db, .ok run) =>
    let t := { t with printed := t.printed ++ [storedLine run] }
    match db.storedPercentiles server run with
    | (db, .ok (some p)) => { t with database := db, printed := t.printed ++ [percentilesLine p] }
    | (db, _) => { t with database := db }

def exportReport (files : Files) (path : String) (report : RunReport) (t : Transcript) : Transcript :=
  match RunReport.codec.write report with
  | none => { t with failure := some (.reported "serializing the report" [files.formless]) }
  | some json =>
    match files.refusal path with
    | none => { t with file := some (path, json.indented) }
    | some why => { t with failure := some (.reported ("writing " ++ path) [why]) }

def close (outcome : Except RunnerError Unit) (t : Transcript) : Transcript :=
  { t with
    database := t.database.close
    failure := match outcome with
      | .ok () => none
      | .error e => some (.reported "benchmark run did not complete cleanly" (e.message :: e.source.toList)) }

def conclude (e : Surroundings) (a : Args) (db : Database) (report : RunReport) (outcome : Except RunnerError Unit) :
    Transcript :=
  let t : Transcript := { printed := ["\n" ++ report.summary], database := db }
  let t := match a.json with
    | some path => exportReport e.files path report t
    | none => t
  if t.failure.isSome then t
  else close outcome (if a.noStore then t else store e.database report t)

/-! ### The program -/

def accountsFor (e : Surroundings) (a : Args) (db : Database) : Database × Except Failure (List String) :=
  match a.scenario with
  | .stream => (db, .ok [])
  | .balance =>
    match db.loadAccountIds e.database with
    | (db, .error why) => (db, .error (.ofDatabase why))
    | (db, .ok []) =>
      (db.close, .error (.reported "No accounts found in the database; seed the accounts table first" []))
    | (db, .ok ids) => (db, .ok ids)

def benchmark (fuel : Nat) (e : Surroundings) (a : Args) (accounts : List String) (client : Client) :
    Option (RunReport × Except RunnerError Unit) :=
  let plan : Rehearsal.Plan :=
    { accounts := accounts, config := a.workload, script := e.service client
      monitor := some (e.readings, defaultMonitorInterval.nanos)
      requests := e.shutdown.toList.map fun t => (t, .signal) }
  let o := plan.play fuel
  match o.runs with
  | [some outcome] => some (o.stage.world.sink.report a.workload a.protocol, outcome)
  | _ => none

def run (fuel : Nat) (e : Surroundings) (a : Args) : Transcript :=
  let db : Database := { config := a.dbConfig }
  match db.connect e.database with
  | (db, .error why) =>
    { database := db
      failure := some (.reported "connecting to the results database" (why.message :: why.source.toList)) }
  | (db, .ok ()) =>
    match accountsFor e a db with
    | (db, .error why) => { database := db, failure := some why }
    | (db, .ok accounts) =>
      match clientFor a with
      | .error why => { database := db, failure := some why }
      | .ok client =>
        match benchmark fuel e a accounts client with
        | none => { database := db, failure := some .crashed }
        | some (report, outcome) => conclude e a db report outcome

end LedgerLoad.Cli
