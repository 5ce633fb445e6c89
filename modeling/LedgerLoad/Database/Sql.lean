import LedgerLoad.Report

/-!
The statements sent to the results database, and the rows it sends back.
-/

set_option autoImplicit false

namespace LedgerLoad.Sql

/-- A parameter of a statement. Times are microseconds from the start of 2000. -/
inductive Param where
  | text (s : String)
  | bool (b : Bool)
  | null
  | int4 (n : Int)
  | int8 (n : Int)
  | float8 (x : Float)
  | timestamptz (micros : Int)

structure Statement where
  text : String
  params : List Param := []

inductive Cell where
  | null
  | text (s : String)
  | int8 (n : Int)
  | float8 (x : Float)

abbrev Row := List Cell

def Cell.text? : Cell → Option String
  | .text s => some s
  | _ => none

def Cell.int8? : Cell → Option Int
  | .int8 n => some n
  | _ => none

def Cell.float8? : Cell → Option Float
  | .float8 x => some x
  | _ => none

/-! ### Columns -/

def undecoded (i : Nat) (why : String) : String := "error occurred while decoding column " ++ toString i ++ ": " ++ why

/-- A column of a row read as one type, where there need not be a value. -/
def optionalColumn {α : Type} (value? : Cell → Option α) (row : Row) (i : Nat) : Except String (Option α) :=
  match row[i]? with
  | none => .error ("column index out of bounds: the len is " ++ toString row.length ++ ", but the index is " ++ toString i)
  | some .null => .ok none
  | some cell =>
    match value? cell with
    | some a => .ok (some a)
    | none => .error (undecoded i "mismatched types")

def column {α : Type} (value? : Cell → Option α) (row : Row) (i : Nat) : Except String α := do
  match ← optionalColumn value? row i with
  | some a => .ok a
  | none => .error (undecoded i "unexpected null; try decoding as an `Option`")

/-! ### Fixed statements -/

def verification : Statement := ⟨"SELECT 1", []⟩

def begin : Statement := ⟨"BEGIN", []⟩

def commit : Statement := ⟨"COMMIT", []⟩

def rollback : Statement := ⟨"ROLLBACK", []⟩

def accounts : Statement := ⟨"SELECT account_id FROM accounts", []⟩

def percentiles (run : Int) : Statement :=
  ⟨"SELECT p50_latency, p90_latency, p99_latency FROM benchmark_stats WHERE run_id = $1", [.int8 run]⟩

/-! ### Storing a report -/

def capped (n : Nat) : Int := min n 0x7FFFFFFF

def ofOption {α : Type} (f : α → Param) : Option α → Param
  | some a => f a
  | none => .null

def runInsert (m : RunMetadata) : Statement where
  text := "INSERT INTO benchmark_runs (scenario, protocol, client, concurrency, duration_sec, rate_limit, " ++
    "cpu_usage_avg, memory_mb_avg, memory_mb_peak) VALUES ($1, $2, $3, $4, $5, $6, $7, $8, $9) RETURNING id"
  params := [.text m.scenario.name, .text m.protocol.name, .text m.client, .int4 (capped m.concurrency),
    .int4 (capped m.durationSec), ofOption (.int4 <| capped ·) m.rateLimit, ofOption .float8 m.cpuUsageAvg,
    ofOption .float8 m.memoryMbAvg, ofOption .float8 m.memoryMbPeak]

abbrev epoch2000 : Int := 946684800

def microsOf (t : Stamp) : Int := (((t.seconds - epoch2000) * 1000000000 + t.nanos).tdiv 1000)

def sampleParams (run : Int) (s : Sample) : List Param :=
  [.int8 run, .float8 s.latencyMillis, .bool s.success, ofOption .text s.error, .timestamptz (microsOf s.timestamp)]

def placeholders (i : Nat) : String :=
  "(" ++ ", ".intercalate ((List.range 5).map fun k => "$" ++ toString (5 * i + k + 1)) ++ ")"

def sampleInsert (run : Int) (samples : List Sample) : Statement where
  text := "INSERT INTO benchmark_samples (run_id, latency_ms, success, error_type, timestamp) VALUES " ++
    ", ".intercalate ((List.range samples.length).map placeholders)
  params := samples.flatMap (sampleParams run)

abbrev samplesPerInsert : Nat := 1000

/-- Consecutive pieces of at most `n + 1` items. -/
def chunks {α : Type} (n : Nat) : List α → List (List α)
  | [] => []
  | a :: as => (a :: as.take n) :: chunks n (as.drop n)
termination_by as => as.length
decreasing_by simp only [List.length_drop, List.length_cons]; omega

def sampleInserts (run : Int) (samples : List Sample) : List Statement :=
  (chunks (samplesPerInsert - 1) samples).map (sampleInsert run)

end LedgerLoad.Sql
