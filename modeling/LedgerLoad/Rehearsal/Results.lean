import LedgerLoad.Database.Session
import LedgerLoad.Text.Fields

/-!
A results database that answers by a script, whatever the occasion.
-/

set_option autoImplicit false

namespace LedgerLoad.Rehearsal

structure ResultsScript where
  /-- The accounts that are known, with rows that hold none. -/
  accounts : List (Option String) := []
  runId : Int := 1
  percentiles : List (List (Option Float)) := []
  rows : List (List (Option String)) := []
  /-- Statements that hold the first text fail with the second. -/
  failing : Option (String × String) := none
  reject : Option String := none

namespace ResultsScript

def mentions (s : Sql.Statement) (part : String) : Bool := Text.occursIn part.toList s.text.toList

def textCell : Option String → Sql.Cell
  | some s => .text s
  | none => .null

def floatCell : Option Float → Sql.Cell
  | some x => .float8 x
  | none => .null

def rowsFor (r : ResultsScript) (s : Sql.Statement) : List Sql.Row :=
  if mentions s "INSERT INTO benchmark_runs" then [[.int8 r.runId]]
  else if mentions s "FROM accounts" then r.accounts.map fun a => [textCell a]
  else if mentions s "benchmark_stats" then r.percentiles.map (·.map floatCell)
  else if s.text.startsWith "SELECT" then r.rows.map (·.map textCell)
  else []

def respond (r : ResultsScript) (s : Sql.Statement) : Except String (List Sql.Row) :=
  match r.failing with
  | some (part, why) => if mentions s part then .error why else .ok (r.rowsFor s)
  | none => .ok (r.rowsFor s)

def server (r : ResultsScript) : DbServer where
  login _ := match r.reject with
    | some why => .error (Database.reported why)
    | none => .ok ()
  respond _ s := r.respond s

end ResultsScript

end LedgerLoad.Rehearsal
