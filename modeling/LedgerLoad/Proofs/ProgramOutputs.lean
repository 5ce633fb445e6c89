import LedgerLoad.Cli.Session
import LedgerLoad.Proofs.RehearsedRuns
import LedgerLoad.Proofs.ReportTallies
import LedgerLoad.Proofs.RunnerDeadlines
import LedgerLoad.Proofs.RunnerRejections
import LedgerLoad.Proofs.RunnerResults
import LedgerLoad.Proofs.SinkFigures

/-!
What the program puts out about a run: a summary that is printed, a file, and rows in the database.

The three are made apart from one report, and they count the same samples. A run that has returned leaves its samples as
they are, so the figures of a report drawn afterwards are those of its list, whatever goes on meanwhile. What fails later
on does not take back what was put out before.
-/

set_option autoImplicit false

namespace LedgerLoad

namespace Cli

open Database (Unfailing sampleRows)
open Load (World Action RunCall)
open Text (numbersAfter)
open Sql (failedRow)

def Transcript.output (t : Transcript) : List Char := Text.printed (t.printed.map String.toList)

variable {e : Surroundings} {a : Args} {db : Database} {accounts : List String} {client : Client} {server : DbServer}
  {report : RunReport} {outcome : Except RunnerError Unit} {t : Transcript}

/-! ### Before the run -/

/-- The benchmark starts: the database is reached, there are accounts if the scenario needs any, and the address is
valid. -/
structure Started (e : Surroundings) (a : Args) (db : Database) (accounts : List String) (client : Client) : Prop where
  reached : ∃ fresh, ({ config := a.dbConfig } : Database).connect e.database = (fresh, .ok ()) ∧
    accountsFor e a fresh = (db, .ok accounts)
  client : clientFor a = .ok client

theorem accounts_of_accountsFor {fresh : Database} (h : accountsFor e a fresh = (db, .ok accounts)) :
    a.workload.Supplied accounts ∧ db.pool = fresh.pool ∧ sampleRows db.log = sampleRows fresh.log := by
  cases scenario : a.scenario with
  | stream =>
    simp only [accountsFor, scenario] at h
    cases h
    have unneeded : a.workload.scenario ≠ .balance := by
      change a.scenario ≠ .balance
      rw [scenario]
      decide
    exact ⟨fun balance => absurd balance unneeded, rfl, rfl⟩
  | balance =>
    have session : (fresh.loadAccountIds e.database).1 = (fresh.query e.database Sql.accounts).1 := rfl
    have asked : (fresh.loadAccountIds e.database).1.pool = fresh.pool ∧
        sampleRows (fresh.loadAccountIds e.database).1.log = sampleRows fresh.log := by
      rw [session]
      exact Database.sampleRows_query Sql.other_fixed.2.1
    simp only [accountsFor, scenario] at h
    split at h
    · cases h
    · cases h
    · rename_i loaded some result
      cases h
      rw [result] at asked
      exact ⟨fun _ => some, asked⟩

theorem Started.ready (h : Started e a db accounts client) :
    a.workload.Supplied accounts ∧ (∃ pool, db.pool = some pool) ∧ sampleRows db.log = [] := by
  obtain ⟨fresh, reached, loaded⟩ := h.reached
  obtain ⟨connected, none⟩ := Database.sampleRows_connect rfl reached
  obtain ⟨supplied, pool, rows⟩ := accounts_of_accountsFor loaded
  rw [pool, rows, none]
  exact ⟨supplied, connected, rfl⟩

/-! ### The run -/

variable {as : List Action} {w : World} {r : RunCall}

/-- The benchmark as far as a schedule takes it: one monitored call on a fresh runner. -/
structure Measuring (a : Args) (accounts : List String) (as : List Action) (w : World) (r : RunCall) : Prop where
  schedule : (World.initial accounts).run as = some w
  only : w.runs = #[r]
  config : r.config = a.workload
  monitored : r.monitored = true

/-- A report is drawn after the call has returned, its figures in one look at the sink and its list in a later one. Anything
may go on before and between. -/
def Measured (a : Args) (accounts : List String) (report : RunReport) (outcome : Except RunnerError Unit) : Prop :=
  ∃ as u r bs v cs w, Measuring a accounts as u r ∧ r.phase = .returned outcome ∧ u.run bs = some v ∧ v.run cs = some w ∧
    report = v.sink.reportAcross w.sink a.workload a.protocol

theorem Measuring.call (m : Measuring a accounts as w r) : w.runs[0]? = some r := by
  rw [m.only]
  rfl

theorem Measuring.claimed (m : Measuring a accounts as w r) (supplied : a.workload.Supplied accounts)
    (begun : r.phase.begun = true) : w.ClaimedBy 0 r := by
  rcases World.orderly_of_run m.schedule with unclaimed | ⟨k, s, c⟩
  · have outside := unclaimed.others 0 r m.call
    rw [World.accounts_of_run m.schedule, m.config] at outside
    have early := World.not_alreadyStarted m.schedule unclaimed.state m.call
    cases hp : r.phase with
    | entered | checked pool =>
      rw [hp] at begun
      cases begun
    | «over» result | returned result =>
      rw [hp] at outside early
      rcases outside with ⟨_, lacking⟩ | ⟨rfl, _⟩
      · exact absurd supplied lacking
      · exact absurd rfl early
    | _ =>
      rw [hp] at outside
      exact outside.elim
  · have inside : k < w.runs.size := (Array.getElem?_eq_some_iff.1 c.call).1
    rw [m.only] at inside
    obtain rfl : k = 0 := Nat.lt_one_iff.1 inside
    obtain rfl := c.call_eq m.call
    exact c

theorem Measured.counts (m : Measured a accounts report outcome) (supplied : a.workload.Supplied accounts) :
    (outcome = .ok () ∨ ∃ fault, outcome = .error (.worker fault)) ∧
    report.statistics.totalRequests = report.samples.length ∧
    report.statistics.failedRequests = report.samples.countP fun s => !s.success := by
  obtain ⟨as, u, r, bs, v, cs, w, measuring, returned, hv, hw, rfl⟩ := m
  have c : u.ClaimedBy 0 r := measuring.claimed supplied (by rw [returned]; rfl)
  obtain ⟨d, sink⟩ := c.settled_run returned hv
  obtain ⟨_, sink'⟩ := d.settled_run returned hw
  have same : w.sink.samples = v.sink.samples := by rw [sink']
  have failures := v.sink.failedRequests_statistics.2
  rw [← List.countP_eq_length_filter] at failures
  refine ⟨(World.standing_result c.standing (by rw [returned]; rfl)).2, ?_, ?_⟩
  · exact congrArg (fun samples => samples.toList.length) same.symm
  · exact failures.trans (congrArg (fun samples => samples.toList.countP fun s => !s.success) same.symm)

/-- A call whose deadline is noted returns by its own steps, with whatever figures its monitor hands over, unless it has to
wait for workers that are not gone. -/
theorem Measuring.returns (m : Measuring a accounts as w r) (supplied : a.workload.Supplied accounts)
    (begun : r.phase.begun = true) (stats : ResourceStats) :
    ∃ bs v q, w.run bs = some v ∧ v.runs[0]? = some { r with phase := q } ∧
      (∀ b ∈ bs, b = .advanceRun 0 false ∨ b = .attach 0 stats) ∧
      ((∃ outcome, q = .returned outcome) ∨
        v.allTerminated = false ∧ (r.phase.staffed = true → w.allTerminated = false)) := by
  obtain ⟨n, v, q, _, own, call, ends⟩ := (m.claimed supplied begun).finishes begun
  have steps : ∀ b ∈ List.replicate n (Action.advanceRun 0 false), b = .advanceRun 0 false ∨ b = .attach 0 stats :=
    fun b hb => .inl (List.eq_of_mem_replicate hb)
  rcases ends with ⟨ended, _, _⟩ | ⟨_, live, before⟩
  · cases q with
    | returned result => exact ⟨_, v, _, own, call, steps, .inl ⟨result, rfl⟩⟩
    | «over» result =>
      have attaches : v.step (.attach 0 stats) =
          some ({ v with sink := v.sink.setResources stats }.setRun 0 (.returned result)) :=
        World.step_of_happens (.attached 0 stats call rfl m.monitored)
      refine ⟨_, _, .returned result, World.run_concat own attaches, ?_, fun b hb => ?_, .inl ⟨result, rfl⟩⟩
      · rw [World.runs_setRun, if_pos rfl]
        simp only [call, Option.map_some]
      · exact (List.mem_append.1 hb).elim (steps b) fun last => .inr (List.mem_singleton.1 last)
    | _ => cases ended
  · exact ⟨_, v, q, own, call, steps, .inr ⟨live, before⟩⟩

/-- Played in virtual time, the benchmark is such a schedule. -/
theorem measured_of_benchmark {fuel : Nat} (h : benchmark fuel e a accounts client = some (report, outcome)) :
    Measured a accounts report outcome := by
  simp only [benchmark] at h
  split at h
  · rename_i outcome' told
    cases h
    obtain ⟨as, r, schedule, only, config, monitored, returned⟩ :=
      Rehearsal.Plan.returned_of_play _ fuel rfl rfl told
    exact ⟨as, _, r, [], _, [], _, ⟨schedule, only, config, monitored⟩, returned, rfl, rfl, rfl⟩
  · cases h

/-! ### After the run -/

structure Drafted (a : Args) (db : Database) (report : RunReport) (t : Transcript) : Prop where
  printed : t.printed = ["\n" ++ report.summary]
  database : t.database = db
  file : ∀ path text, t.file = some (path, text) →
    a.json = some path ∧ ∃ json, RunReport.codec.write report = some json ∧ text = json.indented
  failure : t.failure.isSome = true ∧ t.file = none ∧ a.json.isSome = true ∨
    t.failure = none ∧ t.file.isSome = a.json.isSome

theorem drafted_exportReport {path : String} (asked : a.json = some path) (files : Files) {t : Transcript}
    {report : RunReport} (h : t = { printed := ["\n" ++ report.summary], database := db }) :
    Drafted a db report (exportReport files path report t) := by
  subst h
  have unwritten : ∀ failure, Drafted a db report
      { printed := ["\n" ++ report.summary], database := db, failure := some failure } :=
    fun failure => ⟨rfl, rfl, fun _ _ h => (nomatch h), .inl ⟨rfl, rfl, by rw [asked]; rfl⟩⟩
  simp only [exportReport]
  split
  · exact unwritten _
  · rename_i json written
    split
    · refine ⟨rfl, rfl, fun path' text h => ?_, .inr ⟨rfl, by rw [asked]; rfl⟩⟩
      cases h
      exact ⟨asked, json, written, rfl⟩
    · exact unwritten _

/-- What follows a draft depends on whether the file was to be written and could not be, and on nothing else about it. -/
theorem exists_drafted (e : Surroundings) (a : Args) (db : Database) (report : RunReport) :
    ∃ t, Drafted a db report t ∧ ∀ server noStore outcome,
      conclude { e with database := server } { a with noStore := noStore } db report outcome =
        if t.failure.isSome then t else close outcome (if noStore then t else store server report t) := by
  cases asked : a.json with
  | none =>
    refine ⟨{ printed := ["\n" ++ report.summary], database := db },
      ⟨rfl, rfl, fun _ _ h => (nomatch h), .inr ⟨rfl, by rw [asked]; rfl⟩⟩, fun server noStore outcome => ?_⟩
    simp only [conclude]
  | some path =>
    refine ⟨_, drafted_exportReport asked e.files rfl, fun server noStore outcome => ?_⟩
    simp only [conclude]

theorem headed_storedLine (run : Int) : Headed (storedLine run) := by
  refine ⟨"Results stored (run_id=", by decide +kernel, toString run ++ ")", ?_, String.append_assoc⟩
  exact (Text.unbroken_int run).append (by decide +kernel)

theorem headed_percentilesLine (p : StoredPercentiles) : Headed (percentilesLine p) := by
  refine ⟨"Database stats (benchmark_stats view): p50 ", by decide +kernel, Decimal.fixed 2 p.p50Ms ++ ("ms, p90 " ++
    (Decimal.fixed 2 p.p90Ms ++ ("ms, p99 " ++ (Decimal.fixed 2 p.p99Ms ++ "ms")))), ?_, ?_⟩
  · have figure := fun x => Decimal.unbroken_fixed 2 x
    exact (figure _).append <| Text.Unbroken.append (by decide +kernel) <| (figure _).append <|
      Text.Unbroken.append (by decide +kernel) <| (figure _).append (by decide +kernel)
  · unfold percentilesLine
    simp only [String.append_assoc]

structure Adds (t t' : Transcript) : Prop where
  printed : ∃ more, t'.printed = t.printed ++ more ∧ ∀ line ∈ more, Headed line
  file : t'.file = t.file

theorem adds_refl (t : Transcript) : Adds t t := ⟨⟨[], (List.append_nil _).symm, fun _ hl => nomatch hl⟩, rfl⟩

theorem adds_store (server : DbServer) (report : RunReport) (t : Transcript) : Adds t (store server report t) := by
  simp only [store]
  split
  · exact ⟨⟨[], (List.append_nil _).symm, fun _ hl => nomatch hl⟩, rfl⟩
  · rename_i run _
    split
    · rename_i p _
      refine ⟨⟨[storedLine run, percentilesLine p], by simp, ?_⟩, rfl⟩
      simp [headed_storedLine, headed_percentilesLine]
    · refine ⟨⟨[storedLine run], rfl, ?_⟩, rfl⟩
      simp [headed_storedLine]

theorem sampleRows_store {pool : Nat} (connected : t.database.pool = some pool)
    (h : Unfailing server t.database report) : ∃ run, sampleRows (store server report t).database.log =
      sampleRows t.database.log ++ report.samples.map (Sql.sampleRow run) := by
  obtain ⟨run, stored, rows⟩ := Database.sampleRows_storeReport connected h
  have session : (store server report t).database =
      ((t.database.storeReport server report).1.query server (Sql.percentiles run)).1 := by
    have asked : ((t.database.storeReport server report).1.storedPercentiles server run).1 =
      ((t.database.storeReport server report).1.query server (Sql.percentiles run)).1 := rfl
    have whole : t.database.storeReport server report = ((t.database.storeReport server report).1, .ok run) :=
      Prod.ext rfl stored
    rw [← asked]
    simp only [store]
    rw [whole]
    rcases answered : (t.database.storeReport server report).1.storedPercentiles server run with ⟨d, _ | _ | p⟩ <;>
      simp only [answered]
  refine ⟨run, ?_⟩
  rw [session, (Database.sampleRows_query (Sql.other_percentiles run)).2, rows]

theorem conclude_cases (e : Surroundings) (a : Args) (db : Database) (report : RunReport) :
    ∃ draft, Drafted a db report draft ∧
      ((draft.file = none ∧ a.json.isSome = true ∧ draft.failure ≠ none ∧ ∀ server noStore outcome,
          conclude { e with database := server } { a with noStore := noStore } db report outcome = draft) ∨
        draft.file.isSome = a.json.isSome ∧ ∀ server noStore, ∃ t, Adds draft t ∧
          t = (if noStore then draft else store server report draft) ∧ ∀ outcome,
            conclude { e with database := server } { a with noStore := noStore } db report outcome = close outcome t) := by
  obtain ⟨draft, drafted, become⟩ := exists_drafted e a db report
  refine ⟨draft, drafted, ?_⟩
  rcases drafted.failure with ⟨failed, unwritten, asked⟩ | ⟨unfailed, exported⟩
  · refine .inl ⟨unwritten, asked, Option.isSome_iff_ne_none.1 failed, fun server noStore outcome => ?_⟩
    rw [become, if_pos failed]
  · refine .inr ⟨exported, fun server noStore => ⟨_, ?_, rfl, fun outcome => ?_⟩⟩
    · split
      · exact adds_refl draft
      · exact adds_store server report draft
    · rw [become, if_neg (by simp [unfailed])]

theorem headed_ne_summary {line : String} (h : Headed line) (report : RunReport) : line ≠ "\n" ++ report.summary := by
  rintro rfl
  refine h.unbroken ?_
  rw [String.toList_append]
  exact List.mem_append_left _ (by decide +kernel)

theorem numbers_of_printed {more : List String} (printed : t.printed = ["\n" ++ report.summary] ++ more)
    (added : ∀ line ∈ more, Headed line) :
    (t.printed.head? = some ("\n" ++ report.summary) ∧ t.printed.count ("\n" ++ report.summary) = 1) ∧
    numbersAfter requestsLabel t.output = [report.statistics.totalRequests] ∧
    numbersAfter errorsLabel t.output = [report.statistics.failedRequests] := by
  have once : more.count ("\n" ++ report.summary) = 0 :=
    List.count_eq_zero.2 fun again => headed_ne_summary (added _ again) report rfl
  have output : t.output = Text.printed ([] :: report.summaryLines.map String.toList ++ [] :: more.map String.toList) := by
    rw [Transcript.output, printed, List.map_append, List.map_singleton, String.toList_append, report.toList_summary]
    simp [Text.printed]
  rw [output, printed, List.count_append, once, List.count_singleton_self]
  exact ⟨⟨rfl, rfl⟩, report.numbers_of_summary more added⟩

/-! ### The law -/

def Exported (a : Args) (t : Transcript) : Prop := t.file.isSome = a.json.isSome

/-- What is put out tells of so many requests, of which so many failed: what is printed does so once, the file does by the
items of a list, and the rows that are sent to the database do if no statement that stores them fails. -/
structure Agrees (e : Surroundings) (a : Args) (db : Database) (report : RunReport) (t : Transcript)
    (requests failed : Nat) : Prop where
  summary : t.printed.head? = some ("\n" ++ report.summary) ∧ t.printed.count ("\n" ++ report.summary) = 1
  total : numbersAfter requestsLabel t.output = [requests]
  errors : numbersAfter errorsLabel t.output = [failed]
  file : ∀ path text, t.file = some (path, text) → a.json = some path ∧
    ∃ json : Json, RunReport.codec.write report = some json ∧ text = json.indented ∧
      (json.itemsUnder "samples").length = requests ∧
      (json.itemsUnder "samples").countP (Json.tells "success" false) = failed
  stored : a.noStore = false → Exported a t → Unfailing e.database db report →
    (sampleRows t.database.log).length = requests ∧ (sampleRows t.database.log).countP failedRow = failed
  unstored : a.noStore = true → sampleRows t.database.log = []

/-- How the program ends: well exactly if the report was exported and the run went well. What the database does while the
run is stored makes no difference to that, nor does it if none is stored; and what a run came to makes no difference to what
is put out. -/
structure Ends (e : Surroundings) (a : Args) (db : Database) (report : RunReport) (outcome : Except RunnerError Unit)
    (t : Transcript) : Prop where
  exitCode : t.exitCode = 0 ↔ Exported a t ∧ outcome = .ok ()
  storage : ∀ server noStore,
    let t' := conclude { e with database := server } { a with noStore := noStore } db report outcome
    t'.exitCode = t.exitCode ∧ t'.file = t.file
  outputs : ∀ outcome', let t' := conclude e a db report outcome'
    t'.printed = t.printed ∧ t'.file = t.file ∧ t'.database = t.database

theorem exitCode_eq_zero_iff : t.exitCode = 0 ↔ t.failure = none := by
  rw [Transcript.exitCode]
  cases t.failure with
  | none => simp
  | some failure => cases failure <;> simp [Failure.exitCode]

theorem failure_close (outcome : Except RunnerError Unit) (t : Transcript) :
    (close outcome t).failure = none ↔ outcome = .ok () := by
  cases outcome <;> simp [close]

theorem ends_of_conclude (e : Surroundings) (a : Args) (db : Database) (report : RunReport)
    (outcome : Except RunnerError Unit) : Ends e a db report outcome (conclude e a db report outcome) := by
  obtain ⟨draft, drafted, ⟨unwritten, asked, failed, same⟩ | ⟨exported, become⟩⟩ := conclude_cases e a db report
  · have mine : ∀ outcome, conclude e a db report outcome = draft := same e.database a.noStore
    rw [mine]
    refine ⟨iff_of_false (fun zero => failed (exitCode_eq_zero_iff.1 zero)) fun well => ?_, fun server noStore => ?_,
      fun outcome' => ?_⟩
    · have written := well.1
      rw [Exported, unwritten, asked] at written
      cases written
    · simp only [same, and_self]
    · simp only [mine, and_self]
  · obtain ⟨t, adds, _, mine⟩ := become e.database a.noStore
    have mine : ∀ outcome, conclude e a db report outcome = close outcome t := mine
    have written : Exported a (close outcome t) := (congrArg Option.isSome adds.file).trans exported
    rw [mine]
    refine ⟨?_, fun server noStore => ?_, fun outcome' => ?_⟩
    · rw [exitCode_eq_zero_iff, failure_close]
      exact ⟨fun ok => ⟨written, ok⟩, And.right⟩
    · obtain ⟨t', adds', _, other⟩ := become server noStore
      rw [other]
      exact ⟨rfl, adds'.file.trans adds.file.symm⟩
    · rw [mine]
      exact ⟨rfl, rfl, rfl⟩

theorem Drafted.counts {draft : Transcript} (h : Drafted a db report draft) {path text : String}
    (written : draft.file = some (path, text)) : a.json = some path ∧
    ∃ json : Json, RunReport.codec.write report = some json ∧ text = json.indented ∧
      (json.itemsUnder "samples").length = report.samples.length ∧
      (json.itemsUnder "samples").countP (Json.tells "success" false) = report.samples.countP fun s => !s.success := by
  obtain ⟨asked, json, given, rfl⟩ := h.file path text written
  have each : ∀ (s : Sample) (item : Json), Sample.codec.write s = some item → item.tells "success" false = !s.success := by
    intro s item written
    rw [Sample.tells_success written]
    cases s.success <;> rfl
  exact ⟨asked, json, given, rfl, Json.counts_of_written each (RunReport.items_of_written given)⟩

theorem agrees_of_conclude (started : Started e a db accounts client)
    (total : report.statistics.totalRequests = report.samples.length)
    (failed : report.statistics.failedRequests = report.samples.countP fun s => !s.success) :
    Agrees e a db report (conclude e a db report outcome) report.samples.length
      (report.samples.countP fun s => !s.success) := by
  obtain ⟨_, ⟨pool, connected⟩, none⟩ := started.ready
  obtain ⟨draft, drafted, ⟨unwritten, asked, _, same⟩ | ⟨_, become⟩⟩ := conclude_cases e a db report
  · have mine : conclude e a db report outcome = draft := same e.database a.noStore outcome
    have printed : draft.printed = ["\n" ++ report.summary] ++ [] := drafted.printed
    obtain ⟨once, requests, errors⟩ := numbers_of_printed printed fun _ hl => nomatch hl
    rw [mine]
    refine ⟨once, requests.trans (by rw [total]), errors.trans (by rw [failed]), fun _ _ => drafted.counts,
      fun _ exported => ?_, fun _ => ?_⟩
    · rw [Exported, unwritten, asked] at exported
      cases exported
    · rw [drafted.database, none]
  · obtain ⟨t, adds, stored, mine⟩ := become e.database a.noStore
    have mine : conclude e a db report outcome = close outcome t := mine outcome
    have sent : sampleRows (close outcome t).database.log = sampleRows t.database.log := Database.sampleRows_close _
    obtain ⟨more, printed, headed⟩ := adds.printed
    rw [drafted.printed] at printed
    have shown : (close outcome t).printed = ["\n" ++ report.summary] ++ more := printed
    obtain ⟨once, requests, errors⟩ := numbers_of_printed shown headed
    rw [mine]
    refine ⟨once, requests.trans (by rw [total]), errors.trans (by rw [failed]), fun path text written => ?_,
      fun stores _ unfailing => ?_, fun unstores => ?_⟩
    · exact drafted.counts (adds.file.symm.trans written)
    · rw [stores, if_neg Bool.false_ne_true] at stored
      rw [← drafted.database] at connected none unfailing
      obtain ⟨run, rows⟩ := sampleRows_store connected unfailing
      rw [sent, stored, rows, none, List.nil_append, List.length_map, List.countP_map]
      refine ⟨rfl, List.countP_congr fun s _ => ?_⟩
      rw [Function.comp_apply, Sql.failedRow_sampleRow]
    · rw [unstores, if_pos rfl] at stored
      rw [sent, stored, drafted.database, none]

/-- What the program puts out about a run agrees, whatever the target does and the run comes to. The summary is printed
first and once; it shows as many requests as the file has samples and as rows are sent, and as many errors as there are
failures among them. A database that fails while the run is stored changes neither the file nor the exit code. A run that
did not go well makes the program fail, with all put out as for one that did. So does the program end that is played in
virtual time; and a benchmark whose deadline is an instant of the clock is over as soon as its workers are gone. -/
theorem outputs_agree (e : Surroundings) (a : Args) (started : Started e a db accounts client) :
    (∀ report outcome, Measured a accounts report outcome →
      (outcome = .ok () ∨ ∃ fault, outcome = .error (.worker fault)) ∧
      Agrees e a db report (conclude e a db report outcome) report.samples.length
        (report.samples.countP fun s => !s.success) ∧
      Ends e a db report outcome (conclude e a db report outcome)) ∧
    (∀ fuel report outcome, benchmark fuel e a accounts client = some (report, outcome) →
      Measured a accounts report outcome ∧ run fuel e a = conclude e a db report outcome) ∧
    (∀ as w r t, Measuring a accounts as w r → World.Reads accounts as 0 t →
      t + a.duration.nanos < Load.clockLimit → ∀ stats, ∃ bs v q, w.run bs = some v ∧
        v.runs[0]? = some { r with phase := q } ∧ (∀ b ∈ bs, b = .advanceRun 0 false ∨ b = .attach 0 stats) ∧
        ((∃ outcome, q = .returned outcome) ∨
          v.allTerminated = false ∧ (r.phase.staffed = true → w.allTerminated = false))) := by
  obtain ⟨fresh, reached, loaded⟩ := started.reached
  have supplied := started.ready.1
  refine ⟨fun report outcome measured => ?_, fun fuel report outcome played => ⟨measured_of_benchmark played, ?_⟩,
    fun as w r t measuring read inRange stats => ?_⟩
  · obtain ⟨kind, total, failed⟩ := measured.counts supplied
    exact ⟨kind, agrees_of_conclude started total failed, ends_of_conclude e a db report outcome⟩
  · simp only [run, reached, loaded, started.client, played]
  · have begun : r.phase.begun = true := by
      refine (read.decides measuring.schedule measuring.call).1.2 ?_
      rw [measuring.config]
      exact inRange
    exact measuring.returns supplied begun stats

/-- One account, one worker and a target that answers, fails and panics in turn. -/
def disturbed : Surroundings where
  database := {
    login := fun _ => .ok ()
    respond := fun _ s => .ok [if s.params.isEmpty then [.text "0.0.1"] else [.int8 7]] }
  service _ := {
    call := fun n _ =>
      if n = 0 then { wait := 1000000 } else if n = 1 then { wait := 2000000, error := some (.stream "reset") }
      else { panic := true } }

def solo : Args := { concurrency := 1, json := some "report.json" }

theorem unfailing_disturbed (d : Database) (r : RunReport) : Unfailing disturbed.database d r := by
  intro i q hq
  have member := List.mem_of_getElem? hq
  simp only [Database.storage, List.cons_append, List.mem_cons, List.mem_append, List.mem_map,
    List.not_mem_nil, or_false] at member
  rcases member with rfl | rfl | ⟨s, _, rfl⟩ | rfl <;> rfl

theorem outputs_of_disturbed : ∃ db accounts client report outcome, Started disturbed solo db accounts client ∧
    benchmark 60 disturbed solo accounts client = some (report, outcome) ∧
    numbersAfter requestsLabel (run 60 disturbed solo).output = [2] ∧
    numbersAfter errorsLabel (run 60 disturbed solo).output = [1] ∧
    (sampleRows (run 60 disturbed solo).database.log).length = 2 ∧
    (sampleRows (run 60 disturbed solo).database.log).countP failedRow = 1 ∧
    (run 60 disturbed solo).file.isSome = true ∧ (run 60 disturbed solo).exitCode = 1 := by
  let fresh := (({ config := solo.dbConfig } : Database).connect disturbed.database).1
  let db := (accountsFor disturbed solo fresh).1
  let client := (clientFor solo).toOption.get (by decide +kernel)
  have started : Started disturbed solo db ["0.0.1"] client := by
    refine ⟨⟨fresh, rfl, rfl⟩, ?_⟩
    have found : (clientFor solo).toOption = some client := (Option.some_get _).symm
    cases known : clientFor solo with
    | error why =>
      rw [known] at found
      cases found
    | ok c =>
      rw [known] at found
      rw [Option.some.inj found]
  have facts : (benchmark 60 disturbed solo ["0.0.1"] client).map (fun x =>
      (x.1.samples.length, x.1.samples.countP fun s => !s.success, decide (x.2 = .error (.worker (.lost true))))) =
      some (2, 1, true) := by decide +kernel
  have written : (run 60 disturbed solo).file.isSome = true ∧ (run 60 disturbed solo).exitCode = 1 := by
    decide +kernel
  obtain ⟨⟨report, outcome⟩, played, values⟩ := Option.map_eq_some_iff.1 facts
  simp only [Prod.mk.injEq] at values
  obtain ⟨size, failures, _⟩ := values
  obtain ⟨agree, rehearsed, _⟩ := outputs_agree disturbed solo started
  obtain ⟨measured, program⟩ := rehearsed 60 report outcome played
  obtain ⟨_, agrees, _⟩ := agree report outcome measured
  rw [← program, size, failures] at agrees
  obtain ⟨rows, failed⟩ := agrees.stored rfl (by rw [Exported, written.1]; rfl) (unfailing_disturbed db report)
  exact ⟨db, _, client, report, outcome, started, played, agrees.total, agrees.errors, rows, failed, written⟩

end Cli

end LedgerLoad
