import LedgerLoad.Connector
import LedgerLoad.Database.Sql

/-!
The results database as the benchmark uses it: a pool that is opened, verified and closed, single statements, and
transactions.

The server is whatever answers: its answer to a login or a statement may depend on the occasion, and occasions are
numbered. All that goes over the wire is kept in a log, newest first.
-/

set_option autoImplicit false

namespace LedgerLoad

open Sql (Statement Row)

/-- How the server answers on an occasion. -/
structure DbServer where
  login : Nat → Except String Unit
  respond : Nat → Statement → Except String (List Row)

/-- What happened between the benchmark and the server; pools are numbered in the order in which they were opened. -/
inductive DbEvent where
  | opened (pool : Nat)
  | sent (pool : Nat) (statement : Statement) (accepted : Bool)
  | closed (pool : Nat)

structure StoredPercentiles where
  p50Ms : Float
  p90Ms : Float
  p99Ms : Float

/-- How many connections a pool has, and how many of them nobody uses. -/
structure PoolStats where
  size : Nat
  idle : Nat
deriving DecidableEq, Repr

structure Database where
  config : DbConfig
  pool : Option Nat := none
  /-- The number of the next occasion, which is above that of every pool opened so far. -/
  occasion : Nat := 0
  log : List DbEvent := []

namespace Database

def reported (message : String) : String := "error returned from database: " ++ message

def send (server : DbServer) (d : Database) (pool : Nat) (s : Statement) : Database × Except String (List Row) :=
  match server.respond d.occasion s with
  | .ok rows => ({ d with occasion := d.occasion + 1, log := .sent pool s true :: d.log }, .ok rows)
  | .error message =>
    ({ d with occasion := d.occasion + 1, log := .sent pool s false :: d.log }, .error (reported message))

/-! ### Connecting -/

def tape (server : DbServer) (start : Nat) (k : Nat) : Attempt Nat where
  opened := (server.login (start + 2 * k)).map fun () => start + 2 * k
  verified := ((server.respond (start + 2 * k + 1) Sql.verification).mapError reported).map fun _ => ()

def eventsOf (server : DbServer) (start : Nat) : ConnectorOp Nat → List DbEvent
  | .sleep _ => []
  | .openPool k => if (tape server start k).opened.isOk then [.opened (start + 2 * k)] else []
  | .verify k pool => [.sent pool Sql.verification (tape server start k).verified.isOk]
  | .release _ pool => [.closed pool]

/-- Opens and verifies a pool, with retries. Nothing is done if there is one. -/
def connect (server : DbServer) (d : Database) : Database × Except DatabaseError Unit :=
  match d.pool with
  | some _ => (d, .ok ())
  | none =>
    let (ops, result) := Connector.connect d.config.retry (tape server d.occasion)
    let events := ops.flatMap (eventsOf server d.occasion)
    let d' := { d with occasion := d.occasion + 2 * d.config.retry.attempts, log := events.reverse ++ d.log }
    match result with
    | .ok pool => ({ d' with pool := some pool }, .ok ())
    | .error e => (d', .error (.connection e))

def close (d : Database) : Database :=
  match d.pool with
  | none => d
  | some pool => { d with pool := none, log := .closed pool :: d.log }

def connection (d : Database) : Except DatabaseError Nat :=
  match d.pool with
  | some pool => .ok pool
  | none => .error .notConnected

def stats (occupancy : Nat → PoolStats) (d : Database) : Option PoolStats := d.pool.map occupancy

/-! ### Statements -/

def query (server : DbServer) (d : Database) (s : Statement) : Database × Except DatabaseError (List Row) :=
  match d.pool with
  | none => (d, .error .notConnected)
  | some pool =>
    let (d, result) := d.send server pool s
    (d, result.mapError .query)

def execute (server : DbServer) (d : Database) (text : String) (params : List String) :
    Database × Except DatabaseError (List Row) :=
  d.query server ⟨text, params.map .text⟩

def sendAll (server : DbServer) (d : Database) (pool : Nat) : List Statement → Database × Except String Unit
  | [] => (d, .ok ())
  | s :: rest =>
    match d.send server pool s with
    | (d, .ok _) => d.sendAll server pool rest
    | (d, .error e) => (d, .error e)

def takeBack (server : DbServer) (pool : Nat) (d : Database) : Database := (d.send server pool Sql.rollback).1

/-- Runs a body between the beginning and the end of a transaction, which is taken back on any failure. -/
def inTransaction {α : Type} (server : DbServer) (d : Database) (pool : Nat)
    (body : Database → Database × Except String α) : Database × Except DatabaseError α :=
  match d.send server pool Sql.begin with
  | (d, .error e) => (d.takeBack server pool, .error (.query e))
  | (d, .ok _) =>
    match body d with
    | (d, .error e) => (d.takeBack server pool, .error (.query e))
    | (d, .ok a) =>
      match d.send server pool Sql.commit with
      | (d, .error e) => (d.takeBack server pool, .error (.query e))
      | (d, .ok _) => (d, .ok a)

def executeMany (server : DbServer) (d : Database) (text : String) (params : List (List String)) :
    Database × Except DatabaseError Unit :=
  match d.pool with
  | none => (d, .error .notConnected)
  | some pool =>
    d.inTransaction server pool fun d => d.sendAll server pool (params.map fun ps => ⟨text, ps.map .text⟩)

/-- The number that the database gives a run: the first column of the only row. -/
def runIdOf : List Row → Except String Int
  | [] => .error "no rows returned by a query that expected to return at least one row"
  | row :: _ => Sql.column Sql.Cell.int8? row 0

def storeBody (server : DbServer) (pool : Nat) (r : RunReport) (d : Database) : Database × Except String Int :=
  match d.send server pool (Sql.runInsert r.metadata) with
  | (d, .error e) => (d, .error e)
  | (d, .ok rows) =>
    match runIdOf rows with
    | .error e => (d, .error e)
    | .ok run =>
      let (d, result) := d.sendAll server pool (Sql.sampleInserts run r.samples)
      (d, result.map fun () => run)

def storeReport (server : DbServer) (d : Database) (r : RunReport) : Database × Except DatabaseError Int :=
  match d.pool with
  | none => (d, .error .notConnected)
  | some pool => d.inTransaction server pool (storeBody server pool r)

/-- The identifiers of the accounts. A row that holds none is an error. -/
def loadAccountIds (server : DbServer) (d : Database) : Database × Except DatabaseError (List String) :=
  let (d, result) := d.query server Sql.accounts
  (d, result.bind fun rows => (rows.mapM fun row => Sql.column Sql.Cell.text? row 0).mapError .query)

/-- A run without measured samples has no percentiles, which are taken as zero. -/
def percentilesOf (row : Row) : Except String StoredPercentiles := do
  let p50 ← Sql.optionalColumn Sql.Cell.float8? row 0
  let p90 ← Sql.optionalColumn Sql.Cell.float8? row 1
  let p99 ← Sql.optionalColumn Sql.Cell.float8? row 2
  return ⟨p50.getD 0, p90.getD 0, p99.getD 0⟩

def storedPercentiles (server : DbServer) (d : Database) (run : Int) :
    Database × Except DatabaseError (Option StoredPercentiles) :=
  let (d, result) := d.query server (Sql.percentiles run)
  (d, result.bind fun rows => (rows.head?.mapM percentilesOf).mapError .query)

end Database

end LedgerLoad
