import Mathlib.Data.List.Induction
import Mathlib.Data.List.Nodup
import LedgerLoad.Proofs.PoolCustody
import LedgerLoad.Proofs.StoredRows

/-!
A session with the results database, operation by operation.

Whether a session is connected is told here from its history alone: some connecting succeeded and no closing came after it.
Every operation passes the pool on as a custodian does: it is opened while none is held, statements go over the one that is
held, and what is held is what is closed. So the custody of a whole session is the custody of its operations, one behind
the other.
-/

set_option autoImplicit false

namespace LedgerLoad

open Sql (Statement Row)

namespace Database

inductive Operation where
  | connect
  | close
  | execute (text : String) (params : List String)
  | executeMany (text : String) (params : List (List String))
  | loadAccountIds
  | storeReport (r : RunReport)
  | storedPercentiles (run : Int)

def Operation.isQuery : Operation → Bool
  | .connect | .close => false
  | _ => true

inductive Answer where
  | done
  | rows (rows : List Row)
  | accounts (ids : List String)
  | stored (run : Int)
  | percentiles (p : Option StoredPercentiles)

def perform (server : DbServer) (d : Database) : Operation → Database × Except DatabaseError Answer
  | .connect => (d.connect server).map id fun result => result.map fun () => .done
  | .close => (d.close, .ok .done)
  | .execute text params => (d.execute server text params).map id fun result => result.map .rows
  | .executeMany text params => (d.executeMany server text params).map id fun result => result.map fun () => .done
  | .loadAccountIds => (d.loadAccountIds server).map id fun result => result.map .accounts
  | .storeReport r => (d.storeReport server r).map id fun result => result.map .stored
  | .storedPercentiles run => (d.storedPercentiles server run).map id fun result => result.map .percentiles

def after (server : DbServer) (d : Database) (ops : List Operation) : Database :=
  ops.foldl (fun d op => (d.perform server op).1) d

/-- All that an operation brings about between the benchmark and the server, oldest first. -/
def traffic (server : DbServer) (d : Database) (op : Operation) : List DbEvent :=
  ((d.perform server op).1.log.take ((d.perform server op).1.log.length - d.log.length)).reverse

/-- Some connecting succeeded, and no closing came after it. -/
def Connected (server : DbServer) (config : DbConfig) (ops : List Operation) : Prop :=
  ∃ before later, ops = before ++ .connect :: later ∧
    ((after server { config := config } before).perform server .connect).2 = .ok .done ∧ .close ∉ later

def hold (pools : List Nat) : DbEvent → List Nat
  | .opened pool => pool :: pools
  | .closed pool => pools.filter (· != pool)
  | .sent _ _ _ => pools

def held (events : List DbEvent) : List Nat := events.foldl hold []

def opens? : DbEvent → Option Nat
  | .opened pool => some pool
  | _ => none

/-- From one pool that is held, or none, to another: one is opened while none is held, statements go over the one that is
held, and that one is closed. -/
inductive Custody : Option Nat → List DbEvent → Option Nat → Prop where
  | nil {h : Option Nat} : Custody h [] h
  | opened {pool : Nat} {events : List DbEvent} {h : Option Nat} (rest : Custody (some pool) events h) :
      Custody none (.opened pool :: events) h
  | sent {pool : Nat} {s : Statement} {accepted : Bool} {events : List DbEvent} {h : Option Nat}
      (rest : Custody (some pool) events h) : Custody (some pool) (.sent pool s accepted :: events) h
  | closed {pool : Nat} {events : List DbEvent} {h : Option Nat} (rest : Custody none events h) :
      Custody (some pool) (.closed pool :: events) h

structure Tenure (low : Nat) (h : Option Nat) (events : List DbEvent) (high : Nat) (h' : Option Nat) : Prop where
  custody : Custody h events h'
  bounds : low ≤ high
  numbers : ∀ pool ∈ events.filterMap opens?, low ≤ pool ∧ pool < high
  fresh : (events.filterMap opens?).Nodup

structure Passes (d d' : Database) (events : List DbEvent) : Prop where
  config : d'.config = d.config
  log : d'.log = events.reverse ++ d.log
  tenure : Tenure d.occasion d.pool events d'.occasion d'.pool

variable {server : DbServer} {config : DbConfig} {d d' d'' : Database} {op : Operation} {ops before later : List Operation}
  {events more done : List DbEvent} {h h' h'' : Option Nat} {pool start low middle high : Nat}

/-! ### Custody -/

theorem Custody.append (c : Custody h events h') (c' : Custody h' more h'') : Custody h (events ++ more) h'' := by
  induction c with
  | nil => exact c'
  | opened _ ih => exact .opened (ih c')
  | sent _ ih => exact .sent (ih c')
  | closed _ ih => exact .closed (ih c')

theorem Custody.foldl_eq (c : Custody h events h') : events.foldl hold h.toList = h'.toList := by
  induction c with
  | nil => rfl
  | opened _ ih => exact ih
  | sent _ ih => exact ih
  | @closed pool events h _ ih =>
    have gone : hold (some pool).toList (.closed pool) = none.toList := by simp [hold]
    rw [List.foldl_cons, gone]
    exact ih

theorem Custody.along (c : Custody h events h') (begun : done <+: events) : ∃ held', Custody h done held' := by
  induction c generalizing done with
  | nil =>
    rw [List.prefix_nil.1 begun]
    exact ⟨_, .nil⟩
  | opened _ ih =>
    obtain rfl | ⟨rest, rfl, within⟩ := List.prefix_cons_iff.1 begun
    · exact ⟨_, .nil⟩
    · obtain ⟨held', c⟩ := ih within
      exact ⟨held', .opened c⟩
  | sent _ ih =>
    obtain rfl | ⟨rest, rfl, within⟩ := List.prefix_cons_iff.1 begun
    · exact ⟨_, .nil⟩
    · obtain ⟨held', c⟩ := ih within
      exact ⟨held', .sent c⟩
  | closed _ ih =>
    obtain rfl | ⟨rest, rfl, within⟩ := List.prefix_cons_iff.1 begun
    · exact ⟨_, .nil⟩
    · obtain ⟨held', c⟩ := ih within
      exact ⟨held', .closed c⟩

theorem Custody.held_length (c : Custody none events h) (begun : done <+: events) : (held done).length ≤ 1 := by
  obtain ⟨pools, c⟩ := c.along begun
  have folded : held done = pools.toList := c.foldl_eq
  rw [folded]
  cases pools <;> simp

theorem Custody.of_sent (all : ∀ e ∈ events, ∃ s accepted, e = .sent pool s accepted) :
    Custody (some pool) events (some pool) := by
  induction events with
  | nil => exact .nil
  | cons e events ih =>
    obtain ⟨s, accepted, rfl⟩ := all e List.mem_cons_self
    exact .sent (ih fun e he => all e (List.mem_cons_of_mem _ he))

theorem Tenure.nil : Tenure low h [] low h where
  custody := .nil
  bounds := Nat.le_refl _
  numbers _ hp := nomatch hp
  fresh := List.nodup_nil

theorem Tenure.until (t : Tenure low h events middle h') (bounds : middle ≤ high) : Tenure low h events high h' where
  custody := t.custody
  bounds := Nat.le_trans t.bounds bounds
  numbers pool hp := ⟨(t.numbers pool hp).1, Nat.lt_of_lt_of_le (t.numbers pool hp).2 bounds⟩
  fresh := t.fresh

theorem Tenure.append (t : Tenure low h events middle h') (t' : Tenure middle h' more high h'') :
    Tenure low h (events ++ more) high h'' where
  custody := t.custody.append t'.custody
  bounds := Nat.le_trans t.bounds t'.bounds
  numbers pool hp := by
    rw [List.filterMap_append, List.mem_append] at hp
    obtain hp | hp := hp
    · exact ⟨(t.numbers pool hp).1, Nat.lt_of_lt_of_le (t.numbers pool hp).2 t'.bounds⟩
    · exact ⟨Nat.le_trans t.bounds (t'.numbers pool hp).1, (t'.numbers pool hp).2⟩
  fresh := by
    rw [List.filterMap_append]
    refine List.nodup_append.2 ⟨t.fresh, t'.fresh, fun pool first other second => ?_⟩
    have early := (t.numbers pool first).2
    have late := (t'.numbers other second).1
    omega

theorem Tenure.of_sent (all : ∀ e ∈ events, ∃ s accepted, e = .sent pool s accepted) (bounds : low ≤ high) :
    Tenure low (some pool) events high (some pool) := by
  have none : events.filterMap opens? = [] := by
    refine List.filterMap_eq_nil_iff.2 fun e he => ?_
    obtain ⟨s, accepted, rfl⟩ := all e he
    rfl
  refine ⟨.of_sent all, bounds, ?_, ?_⟩
  · rw [none]
    exact fun _ hp => nomatch hp
  · rw [none]
    exact List.nodup_nil

/-! ### Connecting -/

theorem opened_tape {k : Nat} (opened : (tape server start k).opened = .ok pool) : pool = start + 2 * k := by
  unfold tape at opened
  cases login : server.login (start + 2 * k) with
  | error why => simp [login, Except.map] at opened
  | ok _ => simpa [login, Except.map] using opened.symm

theorem eventsOf_wait (policy : RetryPolicy) (k : Nat) : (Connector.wait policy k).flatMap (eventsOf server start) = [] := by
  unfold Connector.wait
  split <;> rfl

theorem tenure_of_gives {policy : RetryPolicy} {k : Nat} (given : (tape server start k).Gives pool) :
    Tenure (start + 2 * k) none ((Connector.round policy (tape server start) k).flatMap (eventsOf server start))
      (start + 2 * (k + 1)) (some pool) := by
  obtain ⟨opened, verified⟩ := given
  obtain rfl := opened_tape opened
  have events : (Connector.round policy (tape server start) k).flatMap (eventsOf server start) =
      [.opened (start + 2 * k), .sent (start + 2 * k) Sql.verification true] := by
    simp [Connector.round, Connector.handling, eventsOf_wait, opened, verified, eventsOf, Except.isOk, Except.toBool]
  rw [events]
  exact ⟨.opened (.sent .nil), by omega, by simp [opens?], List.nodup_singleton _⟩

theorem tenure_of_fails {policy : RetryPolicy} {k : Nat} {error : String} (failed : (tape server start k).Fails error) :
    Tenure (start + 2 * k) none ((Connector.round policy (tape server start) k).flatMap (eventsOf server start))
      (start + 2 * (k + 1)) none := by
  cases failed with
  | refused opened =>
    have events : (Connector.round policy (tape server start) k).flatMap (eventsOf server start) = [] := by
      simp [Connector.round, Connector.handling, eventsOf_wait, opened, eventsOf, Except.isOk, Except.toBool]
    rw [events]
    exact Tenure.nil.until (by omega)
  | @rejected pool opened verified =>
    obtain rfl := opened_tape opened
    have events : (Connector.round policy (tape server start) k).flatMap (eventsOf server start) =
        [.opened (start + 2 * k), .sent (start + 2 * k) Sql.verification false, .closed (start + 2 * k)] := by
      simp [Connector.round, Connector.handling, eventsOf_wait, opened, verified, eventsOf, Except.isOk, Except.toBool]
    rw [events]
    exact ⟨.opened (.sent (.closed .nil)), by omega, by simp [opens?], List.nodup_singleton _⟩

/-- Whatever the attempts come to, one pool is held after a connection that succeeds, and none after one that fails. -/
theorem tenure_of_connectFrom (server : DbServer) (start : Nat) (policy : RetryPolicy) (k : Nat) (last : Option String) (left : Nat) :
    Tenure (start + 2 * k) none
      ((Connector.connectFrom policy (tape server start) k last left).1.flatMap (eventsOf server start))
      (start + 2 * (k + left)) (Connector.connectFrom policy (tape server start) k last left).2.toOption := by
  induction left generalizing k last with
  | zero => exact .nil
  | succ left ih =>
    obtain ⟨pool, given⟩ | ⟨error, failed⟩ := (tape server start k).gives_or_fails
    · rw [Connector.connectFrom_gives given]
      exact (tenure_of_gives given).until (by omega)
    · rw [Connector.connectFrom_fails failed, List.flatMap_append]
      have count : k + (left + 1) = k + 1 + left := by omega
      rw [count]
      exact (tenure_of_fails failed).append (ih (k + 1) (some error))

theorem result_of_connectFrom (policy : RetryPolicy) (tape : Nat → Attempt Nat) (k : Nat) (last : Option String)
    (left : Nat) : (∃ pool, (Connector.connectFrom policy tape k last left).2 = .ok pool) ↔
      ∃ j, k ≤ j ∧ j < k + left ∧ ∃ pool, (tape j).Gives pool := by
  induction left generalizing k last with
  | zero =>
    simp only [Connector.connectFrom, reduceCtorEq, exists_const, false_iff]
    rintro ⟨j, from_, within, _⟩
    omega
  | succ left ih =>
    obtain ⟨pool, given⟩ | ⟨error, failed⟩ := (tape k).gives_or_fails
    · rw [Connector.connectFrom_gives given]
      exact iff_of_true ⟨pool, rfl⟩ ⟨k, Nat.le_refl k, by omega, pool, given⟩
    · rw [Connector.connectFrom_fails failed, ih]
      constructor
      · rintro ⟨j, from_, within, given⟩
        exact ⟨j, by omega, by omega, given⟩
      · rintro ⟨j, from_, within, pool, given⟩
        have other : j ≠ k := by
          rintro rfl
          exact failed.not_gives given
        exact ⟨j, by omega, by omega, pool, given⟩

/-! ### One operation -/

theorem Passes.refl (d : Database) : Passes d d [] := ⟨rfl, rfl, .nil⟩

theorem Passes.trans (p : Passes d d' events) (p' : Passes d' d'' more) : Passes d d'' (events ++ more) where
  config := p'.config.trans p.config
  log := by rw [p'.log, p.log, List.reverse_append, List.append_assoc]
  tenure := p.tenure.append p'.tenure

theorem passes_of_wrote (connected : d.pool = some pool) (all : ∀ e ∈ events, ∃ s accepted, e = .sent pool s accepted) :
    Passes d (d.wrote events) events where
  config := rfl
  log := rfl
  tenure := by
    have same : (d.wrote events).pool = some pool := connected
    rw [connected, same]
    exact .of_sent all (Nat.le_add_right _ _)

theorem traffic_eq (p : Passes d (d.perform server op).1 events) : traffic server d op = events := by
  rw [traffic, p.log, List.length_append, List.length_reverse, Nat.add_sub_cancel, ← List.length_reverse,
    List.take_left, List.reverse_reverse]

theorem Sends.statements {occasion : Nat} {qs : List Request} {sent : List DbEvent} {failure : Option String}
    (h : Sends server pool occasion qs sent failure) : ∀ e ∈ sent, ∃ s accepted, e = .sent pool s accepted := by
  induction h with
  | nil => exact fun _ he => nomatch he
  | next _ _ ih => exact List.forall_mem_cons.2 ⟨⟨_, _, rfl⟩, ih⟩
  | broken _ => exact List.forall_mem_cons.2 ⟨⟨_, _, rfl⟩, fun _ he => nomatch he⟩

structure Sent (server : DbServer) (d : Database) (pool : Nat) (op : Operation) (events : List DbEvent) : Prop where
  nonempty : events ≠ []
  statements : ∀ e ∈ events, ∃ s accepted, e = .sent pool s accepted
  session : (d.perform server op).1 = d.wrote events
  answered : (d.perform server op).2 ≠ .error .notConnected

theorem statements_of_sends {qs : List Request} {sent : List DbEvent} {failure : Option String}
    (h : Sends server pool d.occasion (begin :: qs) sent failure) (occasion : Nat) :
    sent ++ takingBack server pool occasion failure ≠ [] ∧
      ∀ e ∈ sent ++ takingBack server pool occasion failure, ∃ s accepted, e = .sent pool s accepted := by
  refine ⟨by cases h <;> simp, fun e he => ?_⟩
  obtain mine | back := List.mem_append.1 he
  · exact h.statements e mine
  · cases failure with
    | none => cases back
    | some why => exact ⟨_, _, List.mem_singleton.1 back⟩

theorem query_connected (server : DbServer) (connected : d.pool = some pool) (s : Statement) : d.query server s =
    (d.wrote [.sent pool s (server.respond d.occasion s).isOk],
      ((server.respond d.occasion s).mapError reported).mapError .query) := by
  simp only [query, connected, send_eq]

theorem sent_of_one {s : Statement}
    (session : (d.perform server op).1 = d.wrote [.sent pool s (server.respond d.occasion s).isOk])
    (answered : (d.perform server op).2 ≠ .error .notConnected) :
    Sent server d pool op [.sent pool s (server.respond d.occasion s).isOk] where
  nonempty := List.cons_ne_nil _ _
  statements := List.forall_mem_cons.2 ⟨⟨_, _, rfl⟩, fun _ he => nomatch he⟩
  session := session
  answered := answered

theorem answered_of_query {α β : Type} (x : Except String α) (f : α → β) :
    (x.mapError DatabaseError.query).map f ≠ .error .notConnected := by
  cases x <;> simp [Except.map]

theorem answered_of_read {α β γ : Type} (x : Except String α) (read : α → Except String β) (f : β → γ) :
    ((x.mapError DatabaseError.query).bind fun a => (read a).mapError .query).map f ≠ .error .notConnected := by
  cases x with
  | error why => exact answered_of_query (.error why) f
  | ok a => exact answered_of_query (read a) f

theorem sent_of_connected (server : DbServer) (connected : d.pool = some pool) (query : op.isQuery = true) :
    ∃ events, Sent server d pool op events := by
  cases op with
  | connect => cases query
  | close => cases query
  | execute text params =>
    have answer := query_connected server connected ⟨text, params.map .text⟩
    refine ⟨_, sent_of_one (s := ⟨text, params.map .text⟩) ?_ ?_⟩
    · simp only [perform, execute, answer, Prod.map, id]
    · simp only [perform, execute, answer, Prod.map]
      exact answered_of_query _ _
  | executeMany text params =>
    obtain ⟨sent, failure, sends, after⟩ := executeMany_sends server connected text params
    obtain ⟨nonempty, statements⟩ := statements_of_sends sends (d.occasion + sent.length)
    refine ⟨_, nonempty, statements, ?_, ?_⟩
    · simp only [perform, after, Prod.map, id]
    · simp only [perform, after, Prod.map]
      exact answered_of_query _ _
  | loadAccountIds =>
    have answer := query_connected server connected Sql.accounts
    refine ⟨_, sent_of_one (s := Sql.accounts) ?_ ?_⟩
    · simp only [perform, loadAccountIds, answer, Prod.map, id]
    · simp only [perform, loadAccountIds, answer, Prod.map]
      exact answered_of_read _ _ _
  | storeReport r =>
    obtain ⟨sent, failure, sends, after⟩ := storeReport_sends server connected r
    obtain ⟨nonempty, statements⟩ := statements_of_sends sends (d.occasion + sent.length)
    refine ⟨_, nonempty, statements, ?_, ?_⟩
    · simp only [perform, after, Prod.map, id]
    · simp only [perform, after, Prod.map]
      exact answered_of_query _ _
  | storedPercentiles run =>
    have answer := query_connected server connected (Sql.percentiles run)
    refine ⟨_, sent_of_one (s := Sql.percentiles run) ?_ ?_⟩
    · simp only [perform, storedPercentiles, answer, Prod.map, id]
    · simp only [perform, storedPercentiles, answer, Prod.map]
      exact answered_of_read _ _ _

theorem query_unconnected (unconnected : d.pool = none) (query : op.isQuery = true) :
    d.perform server op = (d, .error .notConnected) := by
  cases op with
  | connect => cases query
  | close => cases query
  | execute text params => simp [perform, execute, Database.query, unconnected, Except.map]
  | executeMany text params => simp [perform, executeMany, unconnected, Except.map]
  | loadAccountIds => simp [perform, loadAccountIds, Database.query, unconnected, Except.bind, Except.map]
  | storeReport r => simp [perform, storeReport, unconnected, Except.map]
  | storedPercentiles run => simp [perform, storedPercentiles, Database.query, unconnected, Except.bind, Except.map]

theorem connect_connected (server : DbServer) (connected : d.pool = some pool) : d.perform server .connect = (d, .ok .done) := by
  simp [perform, connect, connected, Except.map]

theorem connect_unconnected (server : DbServer) (unconnected : d.pool = none) :
    (∃ events, Passes d (d.perform server .connect).1 events) ∧
    ((d.perform server .connect).2 = .ok .done ↔ (d.perform server .connect).1.pool.isSome = true) ∧
    ((d.perform server .connect).2 = .ok .done ↔
      ∃ k < d.config.retry.attempts, ∃ pool, (tape server d.occasion k).Gives pool) ∧
    ((d.perform server .connect).2 = .ok .done ∨
      ∃ e, (d.perform server .connect).2 = .error (.connection e)) := by
  have tenure := tenure_of_connectFrom server d.occasion d.config.retry 0 none
    d.config.retry.attempts
  have given := result_of_connectFrom d.config.retry (tape server d.occasion) 0 none d.config.retry.attempts
  have mine : Connector.connectFrom d.config.retry (tape server d.occasion) 0 none d.config.retry.attempts =
    Connector.connect d.config.retry (tape server d.occasion) := rfl
  rw [mine, Nat.mul_zero, Nat.add_zero, Nat.zero_add] at tenure
  simp only [mine, Nat.zero_le, true_and, Nat.zero_add] at given
  cases result : (Connector.connect d.config.retry (tape server d.occasion)).2 with
  | error e =>
    rw [result] at tenure given
    have after : d.connect server = ({ d with
        occasion := d.occasion + 2 * d.config.retry.attempts,
        log := ((Connector.connect d.config.retry (tape server d.occasion)).1.flatMap
          (eventsOf server d.occasion)).reverse ++ d.log }, .error (.connection e)) := by
      simp only [connect, unconnected, result]
    simp only [perform, after, Prod.map, id, unconnected, Except.map]
    refine ⟨⟨_, rfl, rfl, ?_⟩, by simp, by simpa using given, .inr ⟨e, rfl⟩⟩
    rw [unconnected]
    exact tenure
  | ok pool =>
    rw [result] at tenure given
    have after : d.connect server = ({ d with
        occasion := d.occasion + 2 * d.config.retry.attempts,
        log := ((Connector.connect d.config.retry (tape server d.occasion)).1.flatMap
          (eventsOf server d.occasion)).reverse ++ d.log,
        pool := some pool }, .ok ()) := by
      simp only [connect, unconnected, result]
    simp only [perform, after, Prod.map, id, Except.map]
    refine ⟨⟨_, rfl, rfl, ?_⟩, by simp, by simpa using given, .inl trivial⟩
    rw [unconnected]
    exact tenure

theorem close_connected (server : DbServer) (connected : d.pool = some pool) : Passes d (d.perform server .close).1 [.closed pool] ∧
    (d.perform server .close).1.pool = none := by
  simp only [perform, close, connected]
  refine ⟨⟨rfl, rfl, ?_⟩, trivial⟩
  rw [connected]
  exact ⟨.closed .nil, Nat.le_refl _, fun _ hp => (nomatch hp), .nil⟩

theorem close_unconnected (server : DbServer) (unconnected : d.pool = none) : d.perform server .close = (d, .ok .done) := by
  simp only [perform, close, unconnected]

theorem Sent.pool_eq (sent : Sent server d pool op events) : (d.perform server op).1.pool = d.pool := by
  rw [sent.session]
  rfl

theorem Sent.passes (sent : Sent server d pool op events) (connected : d.pool = some pool) :
    Passes d (d.perform server op).1 events := by
  rw [sent.session]
  exact passes_of_wrote connected sent.statements

theorem passes_of_perform (server : DbServer) (d : Database) (op : Operation) :
    ∃ events, Passes d (d.perform server op).1 events := by
  cases query : op.isQuery with
  | true =>
    cases held : d.pool with
    | none =>
      rw [query_unconnected held query]
      exact ⟨[], .refl d⟩
    | some pool =>
      obtain ⟨events, sent⟩ := sent_of_connected server held query
      exact ⟨events, sent.passes held⟩
  | false =>
    cases op with
    | connect =>
      cases held : d.pool with
      | none => exact (connect_unconnected server held).1
      | some pool =>
        rw [connect_connected server held]
        exact ⟨[], .refl d⟩
    | close =>
      cases held : d.pool with
      | none =>
        rw [close_unconnected server held]
        exact ⟨[], .refl d⟩
      | some pool => exact ⟨_, (close_connected server held).1⟩
    | _ => cases query

theorem held_of_perform (server : DbServer) (d : Database) (op : Operation) :
    (d.perform server op).1.pool.isSome = true ↔
      (op = .connect ∧ (d.perform server .connect).2 = .ok .done) ∨ (d.pool.isSome = true ∧ op ≠ .close) := by
  cases query : op.isQuery with
  | true =>
    have apart : op ≠ .connect ∧ op ≠ .close := by constructor <;> rintro rfl <;> cases query
    have same : (d.perform server op).1.pool = d.pool := by
      cases held : d.pool with
      | none => rw [query_unconnected held query, held]
      | some pool =>
        obtain ⟨events, sent⟩ := sent_of_connected server held query
        rw [sent.pool_eq, held]
    simp [same, apart]
  | false =>
    cases op with
    | connect =>
      cases held : d.pool with
      | none => simp [(connect_unconnected server held).2.1]
      | some pool => simp [connect_connected server held, held]
    | close =>
      cases held : d.pool with
      | none => simp [close_unconnected server held, held]
      | some pool => simp [(close_connected server held).2]
    | _ => cases query

/-- A query reaches the server exactly if a pool is held. -/
theorem reaches_iff_held (server : DbServer) (d : Database) (query : op.isQuery = true) :
    (∃ pool s accepted, .sent pool s accepted ∈ traffic server d op) ↔ d.pool.isSome = true := by
  cases held : d.pool with
  | none =>
    have nothing : Passes d (d.perform server op).1 [] := by
      rw [query_unconnected held query]
      exact .refl d
    simp [traffic_eq nothing]
  | some pool =>
    obtain ⟨events, sent⟩ := sent_of_connected server held query
    obtain ⟨e, he⟩ := List.exists_mem_of_ne_nil _ sent.nonempty
    obtain ⟨s, accepted, rfl⟩ := sent.statements e he
    exact iff_of_true ⟨pool, s, accepted, (traffic_eq (sent.passes held)).symm ▸ he⟩ rfl

theorem unconnected_of_failed (server : DbServer) (failed : (d.perform server .connect).2 ≠ .ok .done) :
    (d.perform server .connect).1.pool = none ∧ ∃ e, (d.perform server .connect).2 = .error (.connection e) := by
  cases held : d.pool with
  | some pool => exact absurd (congrArg Prod.snd (connect_connected server held)) failed
  | none =>
    obtain ⟨_, success, _, done | error⟩ := connect_unconnected server held
    · exact absurd done failed
    · exact ⟨Option.not_isSome_iff_eq_none.1 (mt success.2 failed), error⟩

/-! ### Sessions -/

theorem after_append (server : DbServer) (d : Database) (ops more : List Operation) :
    after server d (ops ++ more) = after server (after server d ops) more := List.foldl_append

theorem passes_of_after (server : DbServer) (d : Database) (ops : List Operation) :
    ∃ events, Passes d (after server d ops) events := by
  induction ops generalizing d with
  | nil => exact ⟨[], .refl d⟩
  | cons op ops ih =>
    obtain ⟨events, first⟩ := passes_of_perform server d op
    obtain ⟨more, later⟩ := ih (d.perform server op).1
    exact ⟨events ++ more, first.trans later⟩

theorem connected_concat : Connected server config (ops ++ [op]) ↔
    (op = .connect ∧ ((after server { config := config } ops).perform server .connect).2 = .ok .done) ∨
      (Connected server config ops ∧ op ≠ .close) := by
  constructor
  · rintro ⟨before, later, same, success, unclosed⟩
    obtain rfl | ⟨middle, last, rfl⟩ := List.eq_nil_or_concat later
    · obtain ⟨rfl, rest⟩ := List.append_inj' same rfl
      cases rest
      exact .inl ⟨rfl, success⟩
    · rw [List.concat_eq_append, ← List.cons_append, ← List.append_assoc] at same
      obtain ⟨rfl, rest⟩ := List.append_inj' same rfl
      cases rest
      simp only [List.concat_eq_append, List.mem_append, List.mem_singleton, not_or] at unclosed
      exact .inr ⟨⟨before, middle, rfl, success, unclosed.1⟩, fun closing => unclosed.2 closing.symm⟩
  · rintro (⟨rfl, success⟩ | ⟨⟨before, later, rfl, success, unclosed⟩, other⟩)
    · exact ⟨ops, [], rfl, success, List.not_mem_nil⟩
    · refine ⟨before, later ++ [op], by simp, success, ?_⟩
      simp only [List.mem_append, List.mem_singleton, not_or]
      exact ⟨unclosed, fun closing => other closing.symm⟩

/-- Whether a pool is held can be told from the history. -/
theorem held_iff_connected (server : DbServer) (config : DbConfig) (ops : List Operation) :
    (after server { config := config } ops).pool.isSome = true ↔ Connected server config ops := by
  induction ops using List.reverseRecOn with
  | nil =>
    refine iff_of_false (fun held => nomatch held) ?_
    rintro ⟨before, later, same, _⟩
    simp at same
  | append_singleton ops op ih =>
    rw [after_append, connected_concat, ← ih]
    exact held_of_perform server _ op

/-- A pool that is held stays so, and nothing but statements over it happens, as long as the session is not closed. -/
theorem held_until_close (server : DbServer) (connected : d.pool = some pool) (unclosed : .close ∉ ops) :
    (after server d ops).pool = some pool ∧ ∃ during : List DbEvent, (after server d ops).log = during.reverse ++ d.log ∧
      ∀ e ∈ during, ∃ s accepted, e = .sent pool s accepted := by
  induction ops generalizing d with
  | nil => exact ⟨connected, [], rfl, fun _ he => nomatch he⟩
  | cons op ops ih =>
    simp only [List.mem_cons, not_or] at unclosed
    obtain ⟨first, unclosed⟩ := unclosed
    have step : (d.perform server op).1.pool = some pool ∧ ∃ events, Passes d (d.perform server op).1 events ∧
        ∀ e ∈ events, ∃ s accepted, e = .sent pool s accepted := by
      cases query : op.isQuery with
      | true =>
        obtain ⟨events, sent⟩ := sent_of_connected server connected query
        exact ⟨sent.pool_eq.trans connected, events, sent.passes connected, sent.statements⟩
      | false =>
        cases op with
        | connect =>
          rw [connect_connected server connected]
          exact ⟨connected, [], .refl d, fun _ he => nomatch he⟩
        | close => exact absurd rfl first
        | _ => cases query
    obtain ⟨held, events, passes, statements⟩ := step
    obtain ⟨last, during, log, statements'⟩ := ih held unclosed
    refine ⟨last, events ++ during, ?_, fun e he => (List.mem_append.1 he).elim (statements e) (statements' e)⟩
    have later : (after server d (op :: ops)).log = during.reverse ++ (d.perform server op).1.log := log
    rw [later, passes.log, List.reverse_append, List.append_assoc]

/-- What holds of a session after some operations, as it is told from these. -/
structure Regular (server : DbServer) (config : DbConfig) (ops : List Operation) (d : Database) : Prop where
  reaches : ∀ query : Operation, query.isQuery = true →
    ((∃ pool s accepted, .sent pool s accepted ∈ traffic server d query) ↔ Connected server config ops)
  refuses : ¬ Connected server config ops → ∀ query : Operation, query.isQuery = true →
    d.perform server query = (d, .error .notConnected)
  answers : Connected server config ops → ∀ query : Operation, query.isQuery = true →
    (d.perform server query).2 ≠ .error .notConnected
  stays : Connected server config ops → d.perform server .connect = (d, .ok .done)
  connects : ¬ Connected server config ops → ((d.perform server .connect).2 = .ok .done ↔
    ∃ k < config.retry.attempts, ∃ pool, (tape server d.occasion k).Gives pool)
  fails : (d.perform server .connect).2 ≠ .ok .done → ¬ Connected server config (ops ++ [.connect]) ∧
    (d.perform server .connect).1.pool = none ∧ ∃ e, (d.perform server .connect).2 = .error (.connection e)
  stats : ∀ occupancy, (d.stats occupancy).isSome = true ↔ Connected server config ops
  single : ∀ done, done <+: d.log.reverse → (held done).length ≤ 1
  current : held d.log.reverse = d.pool.toList
  fresh : (d.log.filterMap opens?).Nodup
  lasts : ∀ pool, d.pool = some pool → ∀ later, .close ∉ later →
    (∃ during : List DbEvent, (after server d later).log = during.reverse ++ d.log ∧
      ∀ e ∈ during, ∃ s accepted, e = .sent pool s accepted) ∧
    traffic server (after server d later) .close = [.closed pool]
  closed : ¬ Connected server config ops → d.perform server .close = (d, .ok .done)

/-- Whatever is asked of a session in whatever order, and whatever the server answers: it is connected exactly if some
connecting succeeded and no closing came after it. Then statements go out over the one pool that is held, which the next
closing closes; otherwise nothing goes out, and connecting is free to succeed. -/
theorem regular_of_operations (server : DbServer) (config : DbConfig) (ops : List Operation) :
    Regular server config ops (after server { config := config } ops) := by
  have connected := held_iff_connected server config ops
  obtain ⟨events, passes⟩ := passes_of_after server { config := config } ops
  have log : (after server { config := config } ops).log.reverse = events := by
    rw [passes.log, List.append_nil, List.reverse_reverse]
  have custody : Custody none events _ := passes.tenure.custody
  have unheld (h : ¬ Connected server config ops) : (after server { config := config } ops).pool = none :=
    Option.not_isSome_iff_eq_none.1 (mt connected.1 h)
  have some_ (h : Connected server config ops) : ∃ pool, (after server { config := config } ops).pool = some pool :=
    Option.isSome_iff_exists.1 (connected.2 h)
  refine {
    reaches := fun query isQuery => (reaches_iff_held server _ isQuery).trans connected
    refuses := fun h query isQuery => query_unconnected (unheld h) isQuery
    answers := ?_
    stays := ?_
    connects := ?_
    fails := ?_
    stats := fun occupancy => by simpa [stats] using connected
    single := fun done begun => custody.held_length (log ▸ begun)
    current := by rw [log]; exact custody.foldl_eq
    fresh := ?_
    lasts := ?_
    closed := fun h => close_unconnected server (unheld h) }
  · intro h query isQuery
    obtain ⟨pool, held⟩ := some_ h
    obtain ⟨sending, sent⟩ := sent_of_connected server held isQuery
    exact sent.answered
  · intro h
    obtain ⟨pool, held⟩ := some_ h
    exact connect_connected server held
  · intro h
    rw [(connect_unconnected server (unheld h)).2.2.1, passes.config]
  · intro failed
    obtain ⟨none, error⟩ := unconnected_of_failed server failed
    have last : (after server { config := config } (ops ++ [.connect])).pool = Option.none := by
      rw [after_append]
      exact none
    refine ⟨fun again => ?_, none, error⟩
    rw [← held_iff_connected, last] at again
    cases again
  · rw [passes.log, List.append_nil, List.filterMap_reverse]
    exact List.nodup_reverse.2 passes.tenure.fresh
  · intro pool held later unclosed
    obtain ⟨last, during⟩ := held_until_close server held unclosed
    exact ⟨during, traffic_eq (close_connected server last).1⟩

/-- The first connection comes to nothing, and the pool of the second does. -/
example :
    let server : DbServer :=
      { login := fun n => if n < 4 then .error "refused" else .ok (), respond := fun _ _ => .ok [] }
    let session := after server { config := { retry := ⟨1, Span.ofMillis 100⟩ } }
      [.connect, .loadAccountIds, .connect, .connect, .execute "SELECT 1" [], .close, .close, .loadAccountIds]
    session.log.filterMap opens? = [4] ∧ session.log.length = 4 ∧ session.pool = none := by decide

end Database

end LedgerLoad
