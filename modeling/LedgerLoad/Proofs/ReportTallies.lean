import LedgerLoad.Database.Session
import LedgerLoad.Report.Json
import LedgerLoad.Proofs.PrintedLines
import LedgerLoad.Proofs.StoredRows

/-!
What a report comes to in a file and in the database, counted.

The value that a report is written as has a list with one item for each sample, and an item tells whether its sample was a
success. The statements that store a report insert one row for each sample, and so does a row. No other statement inserts
samples.
-/

set_option autoImplicit false

namespace LedgerLoad

namespace Json

def itemsUnder (name : String) : Json → List Json
  | .record members =>
    match members.lookup name with
    | some (.list items) => items
    | _ => []
  | _ => []

def tells (name : String) (b : Bool) : Json → Bool
  | .record members =>
    match members.lookup name with
    | some (.bool x) => x == b
    | _ => false
  | _ => false

theorem counts_of_written {α : Type} {c : Codec α} {p : α → Bool} {q : Json → Bool} {as : List α} {items : List Json}
    (each : ∀ a item, c.write a = some item → q item = p a) (h : as.mapM c.write = some items) :
    items.length = as.length ∧ items.countP q = as.countP p := by
  induction as generalizing items with
  | nil =>
    cases h
    exact ⟨rfl, rfl⟩
  | cons a as ih =>
    rw [List.mapM_cons] at h
    obtain ⟨item, written, later⟩ := Option.bind_eq_some_iff.1 h
    obtain ⟨rest, writtenRest, given⟩ := Option.bind_eq_some_iff.1 later
    cases given
    obtain ⟨size, count⟩ := ih writtenRest
    rw [List.length_cons, List.length_cons, List.countP_cons, List.countP_cons, size, count, each a item written]
    exact ⟨rfl, rfl⟩

end Json

theorem Sample.tells_success {s : Sample} {item : Json} (h : Sample.codec.write s = some item) (b : Bool) :
    item.tells "success" b = (s.success == b) := by
  simp only [Sample.codec, Json.Fields.codec, Json.Fields.writeMembers, Option.map_eq_some_iff, Option.bind_eq_bind,
    Option.bind_eq_some_iff, Option.pure_def, Option.some.injEq] at h
  obtain ⟨members, ⟨latency, _, later, ⟨success, told, later', ⟨error, _, rest, _, rfl⟩, rfl⟩, rfl⟩, rfl⟩ := h
  cases told
  rfl

theorem RunReport.items_of_written {r : RunReport} {json : Json} (h : RunReport.codec.write r = some json) :
    r.samples.mapM Sample.codec.write = some (json.itemsUnder "samples") := by
  simp only [RunReport.codec, Json.Fields.codec, Json.Fields.writeMembers, Option.map_eq_some_iff, Option.bind_eq_bind,
    Option.bind_eq_some_iff, Option.pure_def, Option.some.injEq] at h
  obtain ⟨members, ⟨metadata, _, later, ⟨statistics, _, later', ⟨samples, written, rest, _, rfl⟩, rfl⟩, rfl⟩, rfl⟩ := h
  obtain ⟨items, all, rfl⟩ := Option.map_eq_some_iff.1 written
  exact all

namespace Sql

def insertion (table : String) : String := "INSERT INTO " ++ table ++ " "

def rowsInto (table : String) (statements : List Statement) : List (List (String × Option Param)) :=
  (statements.filter fun s => (insertion table).toList.isPrefixOf s.text.toList).flatMap Statement.rows

def failedRow (row : List (String × Option Param)) : Bool :=
  match row.lookup "success" with
  | some (some (.bool success)) => !success
  | _ => false

/-- A statement that inserts no sample, as the beginning of its text tells. -/
def Other (s : Statement) : Prop := Text.differ (insertion "benchmark_samples").toList s.text.toList = true

variable {statements more : List Statement}

theorem rowsInto_append (table : String) (statements more : List Statement) :
    rowsInto table (statements ++ more) = rowsInto table statements ++ rowsInto table more := by
  rw [rowsInto, List.filter_append, List.flatMap_append]
  rfl

theorem rowsInto_of_other (h : ∀ s ∈ statements, Other s) : rowsInto "benchmark_samples" statements = [] := by
  have none : (statements.filter fun s => (insertion "benchmark_samples").toList.isPrefixOf s.text.toList) = [] :=
    List.filter_eq_nil_iff.2 fun s hs => ne_true_of_eq_false (Text.isPrefixOf_of_differ (h s hs))
  rw [rowsInto, none, List.flatMap_nil]

theorem rowsInto_sampleInserts (run : Int) (samples : List Sample) :
    rowsInto "benchmark_samples" (sampleInserts run samples) = samples.map (sampleRow run) := by
  have all : ((sampleInserts run samples).filter fun s =>
      (insertion "benchmark_samples").toList.isPrefixOf s.text.toList) = sampleInserts run samples := by
    refine List.filter_eq_self.2 fun s hs => ?_
    obtain ⟨piece, _, rfl⟩ := List.mem_map.1 hs
    have text : (sampleInsert run piece).text = insertion "benchmark_samples" ++
        ("(run_id, latency_ms, success, error_type, timestamp) VALUES " ++
          ", ".intercalate ((List.range piece.length).map placeholders)) := by
      rw [← String.append_assoc]
      rfl
    rw [text, String.toList_append]
    exact List.isPrefixOf_iff_prefix.2 (List.prefix_append _ _)
  rw [rowsInto, all, (storesSamples run samples).rows]

theorem failedRow_sampleRow (run : Int) (s : Sample) : failedRow (sampleRow run s) = !s.success := by
  have value : (sampleRow run s).lookup "success" = some (some (.bool s.success)) := rfl
  rw [failedRow, value]

theorem other_runInsert (m : RunMetadata) : Other (runInsert m) := by
  have text : (runInsert m).text.toList = _ ++ _ := String.toList_append
  rw [Other, text]
  exact Text.differ_append (by decide +kernel) _

theorem other_percentiles (run : Int) : Other (percentiles run) := by
  change Text.differ _ "SELECT p50_latency, p90_latency, p99_latency FROM benchmark_stats WHERE run_id = $1".toList = true
  decide +kernel

theorem other_fixed : Other verification ∧ Other accounts ∧ Other begin ∧ Other commit := by
  unfold Other
  decide +kernel

theorem rowsInto_transaction (r : RunReport) (run : Int) :
    rowsInto "benchmark_samples" (Database.transaction r run) = r.samples.map (sampleRow run) := by
  obtain ⟨_, _, opening, closing⟩ := other_fixed
  have before : rowsInto "benchmark_samples" [begin, runInsert r.metadata] = [] :=
    rowsInto_of_other (by simp [opening, other_runInsert])
  have after : rowsInto "benchmark_samples" [commit] = [] := rowsInto_of_other (by simp [closing])
  have parts : Database.transaction r run = [begin, runInsert r.metadata] ++ sampleInserts run r.samples ++ [commit] := rfl
  rw [parts, rowsInto_append, rowsInto_append, before, after, rowsInto_sampleInserts, List.nil_append, List.append_nil]

end Sql

namespace Database

open Sql (Other Statement rowsInto)

def sampleRows (log : List DbEvent) : List (List (String × Option Sql.Param)) :=
  rowsInto "benchmark_samples" (log.reverse.filterMap DbEvent.statement?)

/-- No statement fails that stores a report, and the run is given a number. -/
def Unfailing (server : DbServer) (d : Database) (r : RunReport) : Prop :=
  Succeed server d.occasion (begin :: storage r (runGiven server (d.occasion + 1) r.metadata) ++ [commit])

variable {server : DbServer} {d d' : Database} {pool : Nat} {r : RunReport} {events log : List DbEvent} {s : Statement}

theorem sampleRows_append (events log : List DbEvent) : sampleRows (events.reverse ++ log) =
    sampleRows log ++ rowsInto "benchmark_samples" (events.filterMap DbEvent.statement?) := by
  rw [sampleRows, List.reverse_append, List.reverse_reverse, List.filterMap_append, Sql.rowsInto_append]
  rfl

theorem sampleRows_of_other (h : ∀ e ∈ events, ∀ s ∈ e.statement?, Other s) (log : List DbEvent) :
    sampleRows (events.reverse ++ log) = sampleRows log := by
  have none : rowsInto "benchmark_samples" (events.filterMap DbEvent.statement?) = [] := by
    refine Sql.rowsInto_of_other fun s hs => ?_
    obtain ⟨e, he, told⟩ := List.mem_filterMap.1 hs
    exact h e he s told
  rw [sampleRows_append, none, List.append_nil]

theorem other_eventsOf (server : DbServer) (start : Nat) (op : ConnectorOp Nat) :
    ∀ e ∈ eventsOf server start op, ∀ s ∈ e.statement?, Other s := by
  intro e he s hs
  cases op with
  | sleep _ => cases he
  | openPool k =>
    simp only [eventsOf] at he
    split at he
    · obtain rfl := List.mem_singleton.1 he
      cases hs
    · cases he
  | verify k pool =>
    obtain rfl := List.mem_singleton.1 he
    obtain rfl := Option.some.inj hs
    exact Sql.other_fixed.1
  | release k pool =>
    obtain rfl := List.mem_singleton.1 he
    cases hs

theorem sampleRows_connect (unconnected : d.pool = none) (h : d.connect server = (d', .ok ())) :
    (∃ pool, d'.pool = some pool) ∧ sampleRows d'.log = sampleRows d.log := by
  let ops := (Connector.connect d.config.retry (tape server d.occasion)).1
  have others : ∀ e ∈ ops.flatMap (eventsOf server d.occasion), ∀ s ∈ e.statement?, Other s := by
    intro e he
    obtain ⟨op, _, made⟩ := List.mem_flatMap.1 he
    exact other_eventsOf server d.occasion op e made
  simp only [connect, unconnected] at h
  split at h
  · rename_i pool _
    cases h
    exact ⟨⟨pool, rfl⟩, sampleRows_of_other others d.log⟩
  · cases h

theorem sampleRows_query (h : Other s) :
    (d.query server s).1.pool = d.pool ∧ sampleRows (d.query server s).1.log = sampleRows d.log := by
  cases connected : d.pool with
  | none => simp only [query, connected, and_self]
  | some pool =>
    simp only [query, connected, send_eq]
    exact ⟨connected, sampleRows_of_other (by simpa [DbEvent.statement?] using h) d.log⟩

theorem sampleRows_close (d : Database) : sampleRows d.close.log = sampleRows d.log := by
  cases connected : d.pool with
  | none => simp only [close, connected]
  | some pool =>
    have silent : ∀ e ∈ [DbEvent.closed pool], ∀ s ∈ e.statement?, Other s := by simp [DbEvent.statement?]
    simp only [close, connected]
    exact sampleRows_of_other silent d.log

/-- A report that is stored without a failure gets its run, and its samples are sent in rows of that run. -/
theorem sampleRows_storeReport (connected : d.pool = some pool) (h : Unfailing server d r) :
    ∃ run, (d.storeReport server r).2 = .ok run ∧
      sampleRows (d.storeReport server r).1.log = sampleRows d.log ++ r.samples.map (Sql.sampleRow run) := by
  obtain ⟨sent, failure, sends, result⟩ := storeReport_sends server connected r
  obtain rfl := sends.failure_eq_none_iff.2 h
  have all : sent.filterMap DbEvent.statement? = transaction r (runGiven server (d.occasion + 1) r.metadata) := by
    rw [statements_of_success sends, map_statement_transaction]
  rw [result, takingBack, List.append_nil]
  refine ⟨runGiven server (d.occasion + 1) r.metadata, rfl, ?_⟩
  rw [wrote, sampleRows_append, all, Sql.rowsInto_transaction]

end Database

end LedgerLoad
