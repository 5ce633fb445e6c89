import LedgerLoad.Database.Session

/-!
What a transaction sends to the server, and what it leaves in the tables.

A transaction is a list of requests between a statement that opens it and one that commits it. They are sent one after the
other up to the first that fails; a failure takes the transaction back. So a server whose transactions are atomic has
stored all of them or nothing.
-/

set_option autoImplicit false

namespace LedgerLoad

open Sql (Statement Row)

def DbEvent.statement? : DbEvent → Option Statement
  | .sent _ statement _ => some statement
  | _ => none

namespace Database

/-- A statement, and why an answer to it is not the one that was asked for. -/
structure Request where
  statement : Statement
  fault? : List Row → Option String := fun _ => none

def Request.outcome (server : DbServer) (occasion : Nat) (q : Request) : Except String Unit :=
  match server.respond occasion q.statement with
  | .error message => .error (reported message)
  | .ok rows =>
    match q.fault? rows with
    | some why => .error why
    | none => .ok ()

/-- Requests are sent from an occasion on, each on the next one, up to the first that fails. -/
inductive Sends (server : DbServer) (pool : Nat) : Nat → List Request → List DbEvent → Option String → Prop where
  | nil {occasion : Nat} : Sends server pool occasion [] [] none
  | next {occasion : Nat} {q : Request} {rest : List Request} {sent : List DbEvent} {failure : Option String}
      (done : q.outcome server occasion = .ok ()) (later : Sends server pool (occasion + 1) rest sent failure) :
      Sends server pool occasion (q :: rest) (.sent pool q.statement true :: sent) failure
  | broken {occasion : Nat} {q : Request} {rest : List Request} {why : String}
      (failed : q.outcome server occasion = .error why) : Sends server pool occasion (q :: rest)
        [.sent pool q.statement (server.respond occasion q.statement).isOk] (some why)

def Succeed (server : DbServer) (occasion : Nat) (qs : List Request) : Prop :=
  ∀ (i : Nat) (q : Request), qs[i]? = some q → q.outcome server (occasion + i) = .ok ()

def takingBack (server : DbServer) (pool occasion : Nat) : Option String → List DbEvent
  | none => []
  | some _ => [.sent pool Sql.rollback (server.respond occasion Sql.rollback).isOk]

def resultOf {α : Type} (a : α) : Option String → Except String α
  | none => .ok a
  | some why => .error why

def wrote (d : Database) (events : List DbEvent) : Database :=
  { d with occasion := d.occasion + events.length, log := events.reverse ++ d.log }

/-- The work sends these requests, and comes to the given value if none fails. -/
def Performs {α : Type} (server : DbServer) (pool : Nat) (qs : List Request) (a : α) (d : Database)
    (after : Database × Except String α) : Prop :=
  ∃ sent failure, Sends server pool d.occasion qs sent failure ∧ after = (d.wrote sent, resultOf a failure)

def begin : Request := { statement := Sql.begin }

def commit : Request := { statement := Sql.commit }

def executions (text : String) (params : List (List String)) : List Request :=
  params.map fun ps => { statement := ⟨text, ps.map .text⟩ }

def runInsertion (m : RunMetadata) : Request where
  statement := Sql.runInsert m
  fault? rows :=
    match runIdOf rows with
    | .ok _ => none
    | .error why => some why

def storage (r : RunReport) (run : Int) : List Request :=
  runInsertion r.metadata :: (Sql.sampleInserts run r.samples).map fun s => { statement := s }

def runGiven (server : DbServer) (occasion : Nat) (m : RunMetadata) : Int :=
  match server.respond occasion (Sql.runInsert m) with
  | .ok rows => (runIdOf rows).toOption.getD 0
  | .error _ => 0

/-! ### Tables -/

inductive Control where
  | begin
  | commit
  | rollback

/-- A server whose transactions are atomic, by what its statements do: they control transactions, or work on the tables. -/
structure Backend (σ : Type) where
  control : Statement → Option Control
  effect : Statement → σ → σ
  /-- Whether a commit that is reported as failed has come about all the same. -/
  keeps : Bool
  begins : control Sql.begin = some .begin
  commits : control Sql.commit = some .commit
  rollsBack : control Sql.rollback = some .rollback
  inserts : ∀ s : Statement, "INSERT".toList <+: s.text.toList → control s = none

/-- The tables as others see them, and as the open transaction does, if there is one. -/
structure Tables (σ : Type) where
  shared : σ
  draft : Option σ := none

def Backend.take {σ : Type} (b : Backend σ) (t : Tables σ) : DbEvent → Tables σ
  | .sent _ s accepted =>
    match b.control s, t.draft with
    | some .begin, none => { t with draft := if accepted then some t.shared else none }
    | some .begin, some _ => t
    | some .commit, some draft => { shared := if accepted || b.keeps then draft else t.shared }
    | some .commit, none => t
    | some .rollback, _ => { shared := t.shared }
    | none, some draft => if accepted then { t with draft := some (b.effect s draft) } else t
    | none, none => if accepted then { t with shared := b.effect s t.shared } else t
  | _ => t

def Backend.stored {σ : Type} (b : Backend σ) (qs : List Request) (table : σ) : σ :=
  qs.foldl (fun t q => b.effect q.statement t) table

/-- How a call went whose data are these requests and that comes to the given value. -/
structure AllOrNothing {α : Type} (server : DbServer) (d : Database) (pool : Nat) (data : List Request) (a : α)
    (after : Database × Except DatabaseError α) (sent : List DbEvent) (failure : Option String) : Prop where
  inOrder : Sends server pool d.occasion (begin :: data ++ [commit]) sent failure
  nothingElse : after.1.log = (sent ++ takingBack server pool (d.occasion + sent.length) failure).reverse ++ d.log
  result : after.2 = (resultOf a failure).mapError .query
  commit_iff : sent.filterMap DbEvent.statement? = (begin :: data ++ [commit]).map Request.statement ↔
    Succeed server d.occasion (begin :: data)
  ok_iff : (∃ b, after.2 = .ok b) ↔ sent = (begin :: data ++ [commit]).map fun q => .sent pool q.statement true
  tables : ∀ (σ : Type) (b : Backend σ) (table : σ), (∀ q ∈ data, b.control q.statement = none) →
    ∃ table', (sent ++ takingBack server pool (d.occasion + sent.length) failure).foldl b.take { shared := table } =
        { shared := table' } ∧
      (table' = table ∨ table' = b.stored data table) ∧
      (sent.filterMap DbEvent.statement? ≠ (begin :: data ++ [commit]).map Request.statement → table' = table) ∧
      ((∃ b, after.2 = .ok b) → table' = b.stored data table)

section

variable {α σ : Type} {a : α} {server : DbServer} {d : Database} {pool occasion : Nat} {q : Request}
  {qs qs' : List Request} {sent sent' : List DbEvent} {failure : Option String} {why : String}

@[simp] theorem mapError_ok {ε ε' : Type} (f : ε → ε') (b : α) : (Except.ok b).mapError f = .ok b := rfl

@[simp] theorem mapError_error {ε ε' : Type} (f : ε → ε') (e : ε) : (Except.error e : Except ε α).mapError f = .error (f e) :=
  rfl

@[simp] theorem wrote_wrote (d : Database) (xs ys : List DbEvent) : (d.wrote xs).wrote ys = d.wrote (xs ++ ys) := by
  simp [wrote, Nat.add_assoc]

theorem send_eq (server : DbServer) (d : Database) (pool : Nat) (s : Statement) : d.send server pool s =
    (d.wrote [.sent pool s (server.respond d.occasion s).isOk], (server.respond d.occasion s).mapError reported) := by
  unfold send
  cases server.respond d.occasion s <;> rfl

/-! ### Requests in a row -/

theorem Sends.append (h : Sends server pool occasion qs sent none)
    (h' : Sends server pool (occasion + qs.length) qs' sent' failure) :
    Sends server pool occasion (qs ++ qs') (sent ++ sent') failure := by
  induction qs generalizing occasion sent with
  | nil =>
    cases h
    exact h'
  | cons q qs ih =>
    cases h with
    | next done later =>
      have shift : occasion + (q :: qs).length = occasion + 1 + qs.length := by simp only [List.length_cons]; omega
      rw [shift] at h'
      exact .next done (ih later h')

theorem Sends.append_of_failure (h : Sends server pool occasion qs sent (some why)) (qs' : List Request) :
    Sends server pool occasion (qs ++ qs') sent (some why) := by
  induction qs generalizing occasion sent with
  | nil => cases h
  | cons q qs ih =>
    cases h with
    | next done later => exact .next done (ih later)
    | broken failed => exact .broken failed

/-- What is sent for two lists of requests is sent for the first, and for the second if the first goes through. -/
theorem Sends.append_cases (h : Sends server pool occasion (qs ++ qs') sent failure) :
    (∃ why, Sends server pool occasion qs sent (some why) ∧ failure = some why) ∨
    ∃ first second, sent = first ++ second ∧ Sends server pool occasion qs first none ∧
      Sends server pool (occasion + qs.length) qs' second failure := by
  induction qs generalizing occasion sent with
  | nil => exact .inr ⟨[], sent, rfl, .nil, h⟩
  | cons q qs ih =>
    cases h with
    | next done later =>
      obtain ⟨why, broke, rfl⟩ | ⟨first, second, rfl, through, rest⟩ := ih later
      · exact .inl ⟨why, .next done broke, rfl⟩
      · have shift : occasion + (q :: qs).length = occasion + 1 + qs.length := by simp only [List.length_cons]; omega
        exact .inr ⟨_, second, rfl, .next done through, by rwa [shift]⟩
    | broken failed => exact .inl ⟨_, .broken failed, rfl⟩

theorem Sends.eq_of_success (h : Sends server pool occasion qs sent none) :
    sent = qs.map fun q => .sent pool q.statement true := by
  induction qs generalizing occasion sent with
  | nil =>
    cases h
    rfl
  | cons q qs ih =>
    cases h with
    | next _ later => rw [ih later, List.map_cons]

theorem Sends.statements_prefix (h : Sends server pool occasion qs sent failure) :
    sent.filterMap DbEvent.statement? <+: qs.map Request.statement := by
  induction h with
  | nil => exact List.nil_prefix
  | next _ _ ih => simpa [DbEvent.statement?] using ih
  | broken _ => simp [DbEvent.statement?]

theorem succeed_cons : Succeed server occasion (q :: qs) ↔
    q.outcome server occasion = .ok () ∧ Succeed server (occasion + 1) qs := by
  unfold Succeed
  constructor
  · intro all
    refine ⟨all 0 q rfl, fun i p hp => ?_⟩
    rw [Nat.add_assoc, Nat.add_comm 1]
    exact all (i + 1) p hp
  · rintro ⟨first, later⟩ i p hp
    cases i with
    | zero =>
      cases hp
      exact first
    | succ i =>
      rw [← Nat.add_assoc, Nat.add_right_comm]
      exact later i p hp

theorem Sends.failure_eq_none_iff (h : Sends server pool occasion qs sent failure) :
    failure = none ↔ Succeed server occasion qs := by
  induction h with
  | nil => simp [Succeed]
  | next done _ ih => simp [ih, succeed_cons, done]
  | broken failed => simp [succeed_cons, failed]

/-! ### The calls -/

theorem sendAll_performs (server : DbServer) (d : Database) (pool : Nat) (ss : List Statement) :
    Performs server pool (ss.map fun s => { statement := s }) () d (d.sendAll server pool ss) := by
  induction ss generalizing d with
  | nil => exact ⟨[], none, .nil, rfl⟩
  | cons s ss ih =>
    rw [sendAll, send_eq]
    cases answer : server.respond d.occasion s with
    | error message =>
      refine ⟨_, some (reported message), .broken ?_, ?_⟩
      · simp [Request.outcome, answer]
      · simp [answer, resultOf]
    | ok rows =>
      obtain ⟨sent, failure, sends, result⟩ := ih (d.wrote [.sent pool s true])
      refine ⟨_, failure, .next ?_ sends, ?_⟩
      · simp [Request.outcome, answer]
      · simpa [Except.isOk, Except.toBool] using result

theorem storeBody_performs (server : DbServer) (d : Database) (pool : Nat) (r : RunReport) :
    Performs server pool (storage r (runGiven server d.occasion r.metadata)) (runGiven server d.occasion r.metadata) d
      (storeBody server pool r d) := by
  rw [storeBody, send_eq, storage]
  cases answer : server.respond d.occasion (Sql.runInsert r.metadata) with
  | error message =>
    refine ⟨_, some (reported message), .broken ?_, ?_⟩
    · simp [runInsertion, Request.outcome, answer]
    · simp [runInsertion, answer, resultOf]
  | ok rows =>
    cases given : runIdOf rows with
    | error why =>
      refine ⟨_, some why, .broken ?_, ?_⟩
      · simp [runInsertion, Request.outcome, answer, given]
      · simp [runInsertion, answer, given, resultOf]
    | ok run =>
      have number : runGiven server d.occasion r.metadata = run := by
        simp [runGiven, answer, given, Except.toOption]
      rw [number]
      obtain ⟨sent, failure, sends, result⟩ := sendAll_performs server
        (d.wrote [.sent pool (Sql.runInsert r.metadata) true]) pool (Sql.sampleInserts run r.samples)
      refine ⟨_, failure, .next ?_ sends, ?_⟩
      · simp [runInsertion, Request.outcome, answer, given]
      · simp only [given, mapError_ok, Except.isOk, Except.toBool, result]
        cases failure <;> simp [resultOf, runInsertion, Except.map]

theorem takeBack_eq (server : DbServer) (pool : Nat) (d : Database) (why : String) :
    takeBack server pool d = d.wrote (takingBack server pool d.occasion (some why)) := by
  rw [takeBack, send_eq]
  rfl

theorem broken_of_refusal {message : String} (refused : server.respond occasion q.statement = .error message)
    (rest : List Request) :
    Sends server pool occasion (q :: rest) [.sent pool q.statement false] (some (reported message)) := by
  have failed : q.outcome server occasion = .error (reported message) := by simp [Request.outcome, refused]
  have broken : Sends server pool occasion (q :: rest) _ _ := .broken failed
  simpa [refused, Except.isOk, Except.toBool] using broken

theorem inTransaction_performs {body : Database → Database × Except String α}
    (performs : Performs server pool qs a (d.wrote [.sent pool Sql.begin true])
      (body (d.wrote [.sent pool Sql.begin true]))) :
    ∃ sent failure, Sends server pool d.occasion (begin :: qs ++ [commit]) sent failure ∧
      d.inTransaction server pool body =
        (d.wrote (sent ++ takingBack server pool (d.occasion + sent.length) failure),
          (resultOf a failure).mapError .query) := by
  rw [inTransaction, send_eq]
  cases opening : server.respond d.occasion Sql.begin with
  | error message =>
    refine ⟨_, _, broken_of_refusal opening (qs ++ [commit]), ?_⟩
    simp only [mapError_error, takeBack_eq server pool _ (reported message), wrote_wrote]
    rfl
  | ok rows =>
    have opened : begin.outcome server d.occasion = .ok () := by simp [begin, Request.outcome, opening]
    obtain ⟨sent, failure, sends, result⟩ := performs
    simp only [mapError_ok, Except.isOk, Except.toBool, result]
    cases failure with
    | some why =>
      refine ⟨_, some why, .next opened (sends.append_of_failure [commit]), ?_⟩
      simp only [resultOf, takeBack_eq server pool _ why, wrote_wrote]
      rfl
    | none =>
      have place : (d.wrote ([.sent pool Sql.begin true] ++ sent)).occasion = d.occasion + 1 + qs.length := by
        rw [sends.eq_of_success]
        simp only [wrote, List.length_append, List.length_map, List.length_singleton]
        omega
      simp only [resultOf, send_eq, wrote_wrote, place]
      cases closing : server.respond (d.occasion + 1 + qs.length) Sql.commit with
      | error message =>
        refine ⟨_, _, .next opened (sends.append (broken_of_refusal (q := commit) closing [])), ?_⟩
        simp only [mapError_error, Except.isOk, Except.toBool, takeBack_eq server pool _ (reported message), wrote_wrote]
        rfl
      | ok rows =>
        have done : commit.outcome server (d.occasion + 1 + qs.length) = .ok () := by
          simp [commit, Request.outcome, closing]
        refine ⟨_, _, .next opened (sends.append (.next done .nil)), ?_⟩
        rw [takingBack, List.append_nil]
        rfl

/-! ### The tables -/

/-- Within a transaction the shared tables stay as they are. -/
theorem Backend.foldl_sends (b : Backend σ) (data : ∀ q ∈ qs, b.control q.statement = none)
    (h : Sends server pool occasion qs sent failure) (table draft : σ) :
    ∃ draft', sent.foldl b.take ⟨table, some draft⟩ = ⟨table, some draft'⟩ ∧
      (failure = none → draft' = b.stored qs draft) := by
  induction h generalizing draft with
  | nil => exact ⟨draft, rfl, fun _ => rfl⟩
  | @next occasion q rest sent failure done later ih =>
    have plain := data q List.mem_cons_self
    obtain ⟨draft', folded, whole⟩ := ih (fun p hp => data p (List.mem_cons_of_mem q hp)) (b.effect q.statement draft)
    refine ⟨draft', ?_, whole⟩
    rw [List.foldl_cons, ← folded]
    simp [Backend.take, plain]
  | @broken occasion q rest why failed =>
    have plain := data q List.mem_cons_self
    cases accepted : (server.respond occasion q.statement).isOk with
    | false => exact ⟨draft, by simp [Backend.take, plain], fun none => nomatch none⟩
    | true => exact ⟨b.effect q.statement draft, by simp [Backend.take, plain], fun none => nomatch none⟩

theorem Backend.take_rollback (b : Backend σ) (t : Tables σ) (accepted : Bool) :
    b.take t (.sent pool Sql.rollback accepted) = { shared := t.shared } := by
  simp [Backend.take, b.rollsBack]

theorem Backend.take_begin (b : Backend σ) (table : σ) (accepted : Bool) :
    b.take { shared := table } (.sent pool Sql.begin accepted) =
      { shared := table, draft := if accepted then some table else none } := by
  simp [Backend.take, b.begins]

theorem Backend.take_commit (b : Backend σ) (table draft : σ) (accepted : Bool) :
    b.take ⟨table, some draft⟩ (.sent pool Sql.commit accepted) =
      { shared := if accepted || b.keeps then draft else table } := by
  simp [Backend.take, b.commits]

/-! ### The law -/

/-- A transaction ends at its beginning, at one of its data, or with the commit. -/
inductive Ends (server : DbServer) (pool occasion : Nat) (data : List Request) : List DbEvent → Option String → Prop where
  | unopened {why : String} (failed : begin.outcome server occasion = .error why) :
      Ends server pool occasion data [.sent pool Sql.begin false] (some why)
  | broken {sent : List DbEvent} {why : String} (failed : Sends server pool (occasion + 1) data sent (some why)) :
      Ends server pool occasion data (.sent pool Sql.begin true :: sent) (some why)
  | closed {sent : List DbEvent} {accepted : Bool} {failure : Option String}
      (opened : begin.outcome server occasion = .ok ()) (through : Sends server pool (occasion + 1) data sent none)
      (whether : failure = none ↔ accepted = true) :
      Ends server pool occasion data (.sent pool Sql.begin true :: (sent ++ [.sent pool Sql.commit accepted])) failure

theorem isOk_of_outcome {s : Statement} (failed : Request.outcome server occasion { statement := s } = .error why) :
    (server.respond occasion s).isOk = false := by
  cases answer : server.respond occasion s with
  | error message => rfl
  | ok rows => simp [Request.outcome, answer] at failed

theorem Sends.ends (h : Sends server pool occasion (begin :: qs ++ [commit]) sent failure) :
    Ends server pool occasion qs sent failure := by
  cases h with
  | broken failed =>
    have refused := isOk_of_outcome failed
    simp only [begin] at refused ⊢
    rw [refused]
    exact .unopened failed
  | next opened later =>
    obtain ⟨why, broke, rfl⟩ | ⟨first, second, rfl, through, last⟩ := later.append_cases
    · exact .broken broke
    · cases last with
      | next done rest =>
        cases rest
        exact .closed opened through (by simp)
      | broken failed =>
        have refused := isOk_of_outcome failed
        simp only [commit] at refused ⊢
        rw [refused]
        exact .closed opened through (by simp)

theorem Ends.commit_iff (h : Ends server pool occasion qs sent failure) :
    sent.filterMap DbEvent.statement? = (begin :: qs ++ [commit]).map Request.statement ↔
      Succeed server occasion (begin :: qs) := by
  rw [succeed_cons]
  cases h with
  | unopened failed => simp [failed, DbEvent.statement?]
  | @broken sent why failed =>
    have stopped := failed.failure_eq_none_iff
    have short := failed.statements_prefix.length_le
    simp only [reduceCtorEq, false_iff] at stopped
    constructor
    · intro all
      have long := congrArg List.length all
      simp [DbEvent.statement?] at long short
      omega
    · rintro ⟨_, through⟩
      exact absurd through stopped
  | closed opened through whether =>
    have all := through.failure_eq_none_iff.1 rfl
    have sends := through.eq_of_success
    subst sends
    simp [opened, all, DbEvent.statement?, List.filterMap_map, Function.comp_def]
    simp [begin, commit]

theorem Ends.accepted_iff (h : Ends server pool occasion qs sent failure) :
    failure = none ↔ sent = (begin :: qs ++ [commit]).map fun q => .sent pool q.statement true := by
  cases h with
  | unopened failed => simp
  | broken failed =>
    have short := failed.statements_prefix.length_le
    constructor
    · rintro ⟨⟩
    · intro all
      have long := congrArg (fun es => (List.filterMap DbEvent.statement? es).length) all
      simp [DbEvent.statement?, List.filterMap_map, Function.comp_def] at long short
      omega
  | closed opened through whether =>
    rw [whether, through.eq_of_success]
    simp [begin, commit]

theorem Ends.tables (h : Ends server pool occasion qs sent failure) (b : Backend σ) (table : σ)
    (data : ∀ q ∈ qs, b.control q.statement = none) (later : Nat) :
    ∃ table', (sent ++ takingBack server pool later failure).foldl b.take { shared := table } = { shared := table' } ∧
      (table' = table ∨ table' = b.stored qs table) ∧
      (¬ Succeed server occasion (begin :: qs) → table' = table) ∧ (failure = none → table' = b.stored qs table) := by
  cases h with
  | unopened failed =>
    refine ⟨table, ?_, .inl rfl, fun _ => rfl, fun none => nomatch none⟩
    simp [takingBack, b.take_begin, b.take_rollback]
  | broken failed =>
    obtain ⟨draft, folded, _⟩ := b.foldl_sends data failed table table
    refine ⟨table, ?_, .inl rfl, fun _ => rfl, fun none => nomatch none⟩
    rw [List.foldl_append, List.foldl_cons, b.take_begin, if_pos rfl, folded]
    simp [takingBack, b.take_rollback]
  | @closed sent accepted failure opened through whether =>
    obtain ⟨draft, folded, whole⟩ := b.foldl_sends data through table table
    obtain rfl := whole rfl
    have all : Succeed server occasion (begin :: qs) := succeed_cons.2 ⟨opened, through.failure_eq_none_iff.1 rfl⟩
    refine ⟨if accepted || b.keeps then b.stored qs table else table, ?_, ?_, fun short => absurd all short, ?_⟩
    · rw [List.foldl_append, List.foldl_cons, List.foldl_append, b.take_begin, if_pos rfl, folded, List.foldl_cons,
        b.take_commit]
      cases failure <;> simp [takingBack, b.take_rollback]
    · split
      · exact .inr rfl
      · exact .inl rfl
    · intro none
      simp [whether.1 none]

theorem allOrNothing_of_sends (h : Sends server pool d.occasion (begin :: qs ++ [commit]) sent failure) :
    AllOrNothing server d pool qs a (d.wrote (sent ++ takingBack server pool (d.occasion + sent.length) failure),
      (resultOf a failure).mapError .query) sent failure := by
  have succeeded : (∃ b, (resultOf a failure).mapError DatabaseError.query = .ok b) ↔ failure = none := by
    cases failure <;> simp [resultOf]
  exact {
    inOrder := h
    nothingElse := rfl
    result := rfl
    commit_iff := h.ends.commit_iff
    ok_iff := succeeded.trans h.ends.accepted_iff
    tables := fun σ b table data => by
      obtain ⟨table', folded, either, short, whole⟩ := h.ends.tables b table data (d.occasion + sent.length)
      exact ⟨table', folded, either, fun unsent => short (mt h.ends.commit_iff.2 unsent),
        fun ok => whole (succeeded.1 ok)⟩ }

theorem executeMany_sends (server : DbServer) (connected : d.pool = some pool) (text : String) (params : List (List String)) :
    ∃ sent failure, Sends server pool d.occasion (begin :: executions text params ++ [commit]) sent failure ∧
      d.executeMany server text params = (d.wrote (sent ++ takingBack server pool (d.occasion + sent.length) failure),
        (resultOf () failure).mapError .query) := by
  have performs := sendAll_performs server (d.wrote [.sent pool Sql.begin true]) pool
    (params.map fun ps => ⟨text, ps.map .text⟩)
  rw [List.map_map] at performs
  simp only [executeMany, connected]
  exact inTransaction_performs performs

theorem storeReport_sends (server : DbServer) (connected : d.pool = some pool) (r : RunReport) :
    ∃ sent failure, Sends server pool d.occasion
        (begin :: storage r (runGiven server (d.occasion + 1) r.metadata) ++ [commit]) sent failure ∧
      d.storeReport server r = (d.wrote (sent ++ takingBack server pool (d.occasion + sent.length) failure),
        (resultOf (runGiven server (d.occasion + 1) r.metadata) failure).mapError .query) := by
  simp only [storeReport, connected]
  exact inTransaction_performs (storeBody_performs server (d.wrote [.sent pool Sql.begin true]) pool r)

theorem prefix_of_ofList {l m : List Char} {s t : String} (hs : s = String.ofList l) (ht : t = String.ofList m)
    (h : l <+: m) (u : String) : s.toList <+: (t ++ u).toList := by
  rw [hs, ht, String.toList_append, String.toList_ofList, String.toList_ofList]
  exact h.trans (List.prefix_append _ _)

theorem storage_inserts {r : RunReport} {run : Int} (hq : q ∈ storage r run) :
    "INSERT".toList <+: q.statement.text.toList := by
  obtain rfl | later := List.mem_cons.1 hq
  · exact prefix_of_ofList rfl rfl (by decide) _
  · obtain ⟨s, hs, rfl⟩ := List.mem_map.1 later
    obtain ⟨samples, _, rfl⟩ := List.mem_map.1 hs
    exact prefix_of_ofList rfl rfl (by decide) _

theorem runIdOf_runGiven {m : RunMetadata} (done : (runInsertion m).outcome server occasion = .ok ()) :
    ∃ rows, server.respond occasion (Sql.runInsert m) = .ok rows ∧ runIdOf rows = .ok (runGiven server occasion m) := by
  cases answer : server.respond occasion (Sql.runInsert m) with
  | error message => simp [Request.outcome, runInsertion, answer] at done
  | ok rows =>
    cases given : runIdOf rows with
    | error why => simp [Request.outcome, runInsertion, answer, given] at done
    | ok run => exact ⟨rows, rfl, by simp [runGiven, answer, given, Except.toOption]⟩

/-- Storing a report, or many rows, is all or nothing. The data of either call are sent in order between a beginning and a
commit, up to the first failure, whose error is the answer; then they are taken back and nothing else is sent. So whatever
the server's transactions do, the tables have all of the data or none, and none if the commit was not sent. -/
theorem all_or_nothing (server : DbServer) (d : Database) (pool : Nat) (connected : d.pool = some pool) :
    (∀ text params, ∃ sent failure, AllOrNothing server d pool (executions text params) ()
      (d.executeMany server text params) sent failure) ∧
    ∀ r : RunReport,
      (∃ sent failure, AllOrNothing server d pool (storage r (runGiven server (d.occasion + 1) r.metadata))
        (runGiven server (d.occasion + 1) r.metadata) (d.storeReport server r) sent failure) ∧
      (∀ run, (d.storeReport server r).2 = .ok run → ∃ rows,
        server.respond (d.occasion + 1) (Sql.runInsert r.metadata) = .ok rows ∧ runIdOf rows = .ok run) ∧
      ∀ (run : Int) (σ : Type) (b : Backend σ), ∀ q ∈ storage r run, b.control q.statement = none := by
  refine ⟨fun text params => ?_, fun r => ?_⟩
  · obtain ⟨sent, failure, sends, result⟩ := executeMany_sends server connected text params
    rw [result]
    exact ⟨sent, failure, allOrNothing_of_sends sends⟩
  · obtain ⟨sent, failure, sends, result⟩ := storeReport_sends server connected r
    rw [result]
    refine ⟨⟨sent, failure, allOrNothing_of_sends sends⟩, fun run ok => ?_,
      fun run σ b q hq => b.inserts _ (storage_inserts hq)⟩
    cases failure with
    | some why => cases ok
    | none =>
      cases ok
      exact runIdOf_runGiven (sends.failure_eq_none_iff.1 rfl 1 _ rfl)

def ledger : Backend (List String) where
  control s :=
    if s.text = "BEGIN" then some .begin
    else if s.text = "COMMIT" then some .commit
    else if s.text = "ROLLBACK" then some .rollback
    else none
  effect s table := s.text :: table
  keeps := false
  begins := rfl
  commits := rfl
  rollsBack := rfl
  inserts s insert := by
    have apart : ∀ t : String, ¬ "INSERT".toList <+: t.toList → s.text ≠ t := by
      rintro t other rfl
      exact other insert
    rw [if_neg (apart "BEGIN" (by decide)), if_neg (apart "COMMIT" (by decide)), if_neg (apart "ROLLBACK" (by decide))]

def fourthRefused : DbServer where
  login _ := .ok ()
  respond n _ := if n = 4 then .error "duplicate key" else .ok [[.int8 7]]

theorem nothing_of_refused_row :
    let d : Database := { config := {}, pool := some 0, occasion := 2 }
    let after := d.executeMany fourthRefused "INSERT INTO accounts VALUES ($1)" [["0.0.1"], ["0.0.1"], ["0.0.2"]]
    d.pool = some 0 ∧ after.2 = .error (.query "error returned from database: duplicate key") ∧
    ∃ events : List DbEvent, after.1.log = events.reverse ++ d.log ∧
      events.foldl ledger.take { shared := ["before"] } = { shared := ["before"] } := by
  intro d after
  obtain ⟨many, _⟩ := all_or_nothing fourthRefused d 0 rfl
  obtain ⟨sent, failure, law⟩ := many "INSERT INTO accounts VALUES ($1)" [["0.0.1"], ["0.0.1"], ["0.0.2"]]
  refine ⟨rfl, rfl, _, law.nothingElse, ?_⟩
  obtain ⟨table, folded, _, unsent, _⟩ := law.tables (List String) ledger ["before"] (by
    intro q hq
    obtain ⟨ps, _, rfl⟩ := List.mem_map.1 hq
    rfl)
  have short : ¬ Succeed fourthRefused d.occasion (begin :: executions "INSERT INTO accounts VALUES ($1)"
      [["0.0.1"], ["0.0.1"], ["0.0.2"]]) := by
    intro all
    cases all 2 _ rfl
  rw [folded, unsent (mt law.commit_iff.1 short)]

end

end Database

end LedgerLoad
