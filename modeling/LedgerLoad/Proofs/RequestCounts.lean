import LedgerLoad.MockLedger.Service
import Mathlib

/-!
No request of the mock ledger goes uncounted, and none is reported twice.

What a move makes of the service is told once. The counter follows the tally of what happened, up to the size of a number,
and the tally is what happened, cut at the reports. What counts is a query that arrived or a transaction that was given to a
subscriber. Each of these laws is kept by every move, so it holds at every moment of every schedule.
-/

set_option autoImplicit false

namespace LedgerLoad.MockLedger

/-! ### What counts -/

def Activity.counts : Activity → Bool
  | .restBalance | .grpcBalance | .grpcBalances _ | .tick (.transaction _) => true
  | .restSubscription | .grpcSubscription | .tick .failure | .report => false

def Activity.reports : Activity → Bool
  | .report => true
  | _ => false

def Tick.isTransaction : Tick → Bool
  | .transaction _ => true
  | .failure => false

def FeedTask.emitted (x : FeedTask) : ℕ := x.sent.countP Tick.isTransaction

/-- A feed that gave the ticks that were due, in order and none of them twice. -/
structure FeedTask.Regular (x : FeedTask) : Prop where
  sent : x.sent = ticks x.config x.surroundings x.place
  pacing : x.phase = .pacing →
    tick x.config x.surroundings x.place = some (.transaction (transaction x.surroundings x.place))

namespace Service

def emitted (v : Service) : ℕ := (v.feeds.toList.map FeedTask.emitted).sum

def tally (v : Service) : Tally := Tally.noteAll {} v.log.reverse

end Service

def received (ms : List Move) : List Query := ms.filterMap Move.query?

/-! ### The tally -/

namespace Tally

variable {a : Activity} {log : List Activity}

theorem eq_report_of_reports (h : a.reports = true) : a = .report := by
  cases a with
  | report => rfl
  | _ => cases h

theorem noteAll_reverse_cons : noteAll {} (a :: log).reverse = (noteAll {} log.reverse).note a := by
  rw [List.reverse_cons, noteAll, List.foldl_append]
  rfl

theorem note_requests_of_counts (t : Tally) (h : a.counts = true) :
    (t.note a).requests = t.requests + 1 ∧ (t.note a).reported = t.reported := by
  cases a with
  | tick k => cases k with
    | transaction => exact ⟨rfl, rfl⟩
    | failure => cases h
  | restBalance | grpcBalance | grpcBalances => exact ⟨rfl, rfl⟩
  | restSubscription | grpcSubscription | report => cases h

theorem note_requests_of_not_counts (t : Tally) (h : a.counts = false) (hr : a.reports = false) :
    (t.note a).requests = t.requests ∧ (t.note a).reported = t.reported := by
  cases a with
  | tick k => cases k with
    | transaction => cases h
    | failure => exact ⟨rfl, rfl⟩
  | restBalance | grpcBalance | grpcBalances => cases h
  | restSubscription | grpcSubscription => exact ⟨rfl, rfl⟩
  | report => cases hr

/-- What was reported, and what is to be, are the counts between one report and the next. -/
theorem noteAll_segments (log : List Activity) :
    (log.splitOnP Activity.reports).map (List.countP Activity.counts) =
      (noteAll {} log.reverse).requests :: (noteAll {} log.reverse).reported := by
  induction log with
  | nil => rfl
  | cons a log ih =>
    rw [noteAll_reverse_cons, List.splitOnP_cons_eq_if_modifyHead]
    cases hr : a.reports with
    | true =>
      obtain rfl := eq_report_of_reports hr
      simp [ih, note]
    | false =>
      obtain ⟨first, rest, hs⟩ := List.exists_cons_of_ne_nil (List.splitOnP_ne_nil Activity.reports log)
      rw [hs, List.map_cons, List.cons.injEq] at ih
      rw [hs]
      cases hc : a.counts with
      | true => simp [note_requests_of_counts _ hc, hc, ih]
      | false => simp [note_requests_of_not_counts _ hc hr, hc, ih]

theorem sum_noteAll (log : List Activity) :
    (noteAll {} log.reverse).reported.sum + (noteAll {} log.reverse).requests = log.countP Activity.counts := by
  induction log with
  | nil => rfl
  | cons a log ih =>
    rw [noteAll_reverse_cons]
    cases hr : a.reports with
    | true =>
      obtain rfl := eq_report_of_reports hr
      simp [note, Activity.counts, ← ih, Nat.add_comm]
    | false =>
      cases hc : a.counts with
      | true => simp [note_requests_of_counts _ hc, hc, ← ih, Nat.add_assoc]
      | false => simp [note_requests_of_not_counts _ hc hr, hc, ← ih]

end Tally

/-! ### Moves -/

namespace Service

variable {v v' : Service} {m : Move} {ms : List Move} {x : FeedTask} {i j : ℕ}

inductive Occurs (v : Service) : Move → Service → Prop where
  | asks (c : Config) (s : Surroundings) {r : Request} {q : Query} (hr : r.demand = .query q) :
      Occurs v (.receive c s r)
        { v.count q.activity with queries := v.queries.push { query := q, surroundings := s } }
  | subscribes (c : Config) (s : Surroundings) {r : Request} {p : Protocol} {rate : ℕ} (hr : r.demand = .feed p rate) :
      Occurs v (.receive c s r)
        { v.note (subscriptionActivity p) with
          feeds := v.feeds.push { config := c, surroundings := s, interval := interval c rate } }
  | passes (c : Config) (s : Surroundings) {r : Request} (hr : r.demand = .other) : Occurs v (.receive c s r) v
  | answers {i : ℕ} {x : QueryTask} (hx : v.queries[i]? = some x) (hp : x.phase = .waiting) :
      Occurs v (.answer i) (v.setQuery i { x with phase := .answered (x.query.answer x.surroundings) })
  | drops {i : ℕ} {x : QueryTask} (hx : v.queries[i]? = some x) (hp : x.phase = .waiting) :
      Occurs v (.drop i) (v.setQuery i { x with phase := .dropped })
  | paces {j : ℕ} {x : FeedTask} (hx : v.feeds[j]? = some x) (hp : x.phase = .idle)
      (ht : tick x.config x.surroundings x.place = some (.transaction (transaction x.surroundings x.place))) :
      Occurs v (.poll j) (v.setFeed j { x with phase := .pacing })
  | fails {j : ℕ} {x : FeedTask} (hx : v.feeds[j]? = some x) (hp : x.phase = .idle)
      (ht : tick x.config x.surroundings x.place = some .failure) :
      Occurs v (.poll j) ((v.note (.tick .failure)).setFeed j (x.give .failure))
  | ends {j : ℕ} {x : FeedTask} (hx : v.feeds[j]? = some x) (hp : x.phase = .idle)
      (ht : tick x.config x.surroundings x.place = none) :
      Occurs v (.poll j) (v.setFeed j { x with phase := .ended })
  | emits {j : ℕ} {x : FeedTask} {t : Tick} (hx : v.feeds[j]? = some x) (hp : x.phase = .pacing)
      (ht : t = .transaction (transaction x.surroundings x.place)) :
      Occurs v (.emit j) ((v.count (.tick t)).setFeed j (x.give t))
  | leaves {j : ℕ} {x : FeedTask} (hx : v.feeds[j]? = some x) (hp : x.phase = .idle ∨ x.phase = .pacing) :
      Occurs v (.leave j) (v.setFeed j { x with phase := .dropped })
  | reports : Occurs v .report v.report

theorem eq_transaction_of_tick {c : Config} {s : Surroundings} {n : ℕ} {t : Transaction}
    (h : tick c s n = some (.transaction t)) : t = transaction s n := by
  unfold tick at h
  split at h
  · cases h
    rfl
  · split at h
    · cases h
      rfl
    · split at h <;> cases h

theorem occurs_of_step (h : v.step m = some v') : Occurs v m v' := by
  cases m with
  | receive c s r =>
    rw [step] at h
    cases hr : r.demand with
    | query q =>
      rw [hr] at h
      cases h
      exact .asks c s hr
    | feed p rate =>
      rw [hr] at h
      cases h
      exact .subscribes c s hr
    | other =>
      rw [hr] at h
      cases h
      exact .passes c s hr
  | answer i =>
    obtain ⟨x, hx, h⟩ := Option.bind_eq_some_iff.1 h
    unfold answer at h
    split at h
    · cases h
      exact .answers hx ‹_›
    · cases h
  | drop i =>
    obtain ⟨x, hx, h⟩ := Option.bind_eq_some_iff.1 h
    unfold drop at h
    split at h
    · cases h
      exact .drops hx ‹_›
    · cases h
  | poll j =>
    obtain ⟨x, hx, h⟩ := Option.bind_eq_some_iff.1 h
    unfold poll at h
    split at h
    · split at h
      · rename_i ht
        cases h
        rw [eq_transaction_of_tick ht] at ht
        exact .paces hx ‹_› ht
      · cases h
        exact .fails hx ‹_› ‹_›
      · cases h
        exact .ends hx ‹_› ‹_›
    · cases h
  | emit j =>
    obtain ⟨x, hx, h⟩ := Option.bind_eq_some_iff.1 h
    unfold emit at h
    split at h
    · cases h
      exact .emits hx ‹_› rfl
    · cases h
  | leave j =>
    obtain ⟨x, hx, h⟩ := Option.bind_eq_some_iff.1 h
    unfold leave at h
    split at h
    · cases h
      exact .leaves hx (.inl ‹_›)
    · cases h
      exact .leaves hx (.inr ‹_›)
    · cases h
  | report =>
    cases h
    exact .reports

theorem run_append {as bs : List Move} : v.run (as ++ bs) = (v.run as).bind fun u => u.run bs := by
  induction as generalizing v with
  | nil => rfl
  | cons m as ih =>
    rw [List.cons_append, run, run]
    cases v.step m with
    | none => rfl
    | some u => exact ih

/-- What holds at the beginning and is kept by every move holds at every moment. -/
theorem run_induction {P : List Move → Service → Prop} (h : ({} : Service).run ms = some v) (start : P [] {})
    (move : ∀ ms v m v', P ms v → Occurs v m v' → P (ms ++ [m]) v') : P ms v := by
  induction ms using List.reverseRecOn generalizing v with
  | nil =>
    cases h
    exact start
  | append_singleton ms m ih =>
    rw [run_append] at h
    obtain ⟨u, hu, h⟩ := Option.bind_eq_some_iff.1 h
    obtain ⟨w, hw, h⟩ := Option.bind_eq_some_iff.1 h
    cases h
    exact move ms u m v (ih hu) (occurs_of_step hw)

/-! ### The counter follows the tally -/

/-- The counter, and what was reported of it, are the tally up to the size of a number. -/
structure Faithful (v : Service) : Prop where
  requests : v.requests = UInt64.ofNat v.tally.requests
  reports : v.reports = v.tally.reported.map UInt64.ofNat

variable {a : Activity}

theorem Faithful.count (h : v.Faithful) (ha : a.counts = true) : (v.count a).Faithful := by
  have tallied : (v.count a).tally = v.tally.note a := Tally.noteAll_reverse_cons
  obtain ⟨requests, reported⟩ := Tally.note_requests_of_counts v.tally ha
  refine ⟨?_, ?_⟩
  · rw [tallied, requests, UInt64.ofNat_add, ← h.requests]
    rfl
  · rw [tallied, reported]
    exact h.reports

theorem Faithful.note (h : v.Faithful) (ha : a.counts = false) (hr : a.reports = false) : (v.note a).Faithful := by
  have tallied : (v.note a).tally = v.tally.note a := Tally.noteAll_reverse_cons
  obtain ⟨requests, reported⟩ := Tally.note_requests_of_not_counts v.tally ha hr
  refine ⟨?_, ?_⟩
  · rw [tallied, requests]
    exact h.requests
  · rw [tallied, reported]
    exact h.reports

theorem Faithful.report (h : v.Faithful) : v.report.Faithful := by
  have tallied : v.report.tally = v.tally.note .report := Tally.noteAll_reverse_cons
  refine ⟨?_, ?_⟩
  · rw [tallied]
    rfl
  · rw [tallied]
    change v.requests :: v.reports = _
    rw [h.requests, h.reports]
    rfl

theorem Faithful.move (h : v.Faithful) (o : Occurs v m v') : v'.Faithful := by
  have same : ∀ {u : Service}, u.Faithful → ∀ qs fs, { u with queries := qs, feeds := fs }.Faithful :=
    fun hu _ _ => ⟨hu.requests, hu.reports⟩
  cases o with
  | asks c s hr => exact same (h.count (by cases ‹Query› <;> rfl)) _ _
  | subscribes c s hr => exact same (h.note (by cases ‹Protocol› <;> rfl) (by cases ‹Protocol› <;> rfl)) _ _
  | passes => exact h
  | answers | drops | paces | ends | leaves => exact same h _ _
  | fails => exact same (h.note rfl rfl) _ _
  | emits hx hp ht =>
    subst ht
    exact same (h.count rfl) _ _
  | reports => exact h.report

/-! ### What the counter owes -/

/-- Everything that was counted is a query that arrived or a transaction that was given. -/
structure Accounted (ms : List Move) (v : Service) : Prop where
  queries : v.queries.toList.map QueryTask.query = received ms
  total : v.log.countP Activity.counts = v.queries.size + v.emitted
  regular : ∀ x ∈ v.feeds, x.Regular

theorem emitted_setFeed {y : FeedTask} (hx : v.feeds[j]? = some x) :
    (v.setFeed j y).emitted + x.emitted = v.emitted + y.emitted := by
  obtain ⟨hj, value⟩ := List.getElem?_eq_some_iff.1 (Array.getElem?_toList.trans hx)
  obtain ⟨before, after, old, _, new⟩ := @List.exists_of_set _ j y _ hj
  rw [value] at old
  change ((v.feeds.set! j y).toList.map _).sum + _ = _
  rw [Array.set!_eq_setIfInBounds, Array.toList_setIfInBounds, new, emitted, old]
  simp only [List.map_append, List.map_cons, List.sum_append, List.sum_cons]
  omega

theorem queries_setQuery {x y : QueryTask} (hx : v.queries[i]? = some x) (same : y.query = x.query) :
    (v.setQuery i y).queries.toList.map QueryTask.query = v.queries.toList.map QueryTask.query := by
  change (v.queries.set! i y).toList.map _ = _
  have unchanged : (v.queries.toList.map QueryTask.query)[i]? = some y.query := by simp [hx, same]
  obtain ⟨hi, h⟩ := List.getElem?_eq_some_iff.1 unchanged
  rw [Array.set!_eq_setIfInBounds, Array.toList_setIfInBounds, List.map_set, ← h, List.set_getElem_self]

theorem mem_setFeed {y z : FeedTask} (h : z ∈ (v.setFeed j y).feeds) : z ∈ v.feeds ∨ z = y :=
  Array.mem_or_eq_of_mem_setIfInBounds h

theorem received_concat : received (ms ++ [m]) = received ms ++ m.query?.toList := by
  unfold received
  rw [List.filterMap_append]
  cases h : m.query? <;> simp [h]

theorem query?_receive {c : Config} {s : Surroundings} {r : Request} {q : Query} (hr : r.demand = .query q) :
    (Move.receive c s r).query? = some q := by
  simp only [Move.query?, hr]

theorem Accounted.goes_on {y : FeedTask} (h : v.Accounted ms) (hx : v.feeds[j]? = some x) (regular : y.Regular)
    (sent : y.sent = x.sent) : (v.setFeed j y).Accounted ms := by
  have emitted := emitted_setFeed (y := y) hx
  have same : y.emitted = x.emitted := congrArg (List.countP Tick.isTransaction) sent
  refine ⟨h.queries, ?_, fun z hz => ?_⟩
  · rw [show (v.setFeed j y).emitted = v.emitted by omega]
    exact h.total
  · rcases mem_setFeed hz with old | rfl
    · exact h.regular z old
    · exact regular

theorem regular_give {t : Tick} (h : x.Regular) (ht : tick x.config x.surroundings x.place = some t) :
    (x.give t).Regular := by
  refine ⟨?_, fun pacing => ?_⟩
  · change x.sent ++ [t] = ticks x.config x.surroundings (x.place + 1)
    rw [ticks_succ, ht, h.sent]
    rfl
  · cases pacing

theorem Accounted.gives {t : Tick} {n : UInt64} (h : v.Accounted ms) (hx : v.feeds[j]? = some x)
    (ht : tick x.config x.surroundings x.place = some t) :
    ({ v.note (.tick t) with requests := n }.setFeed j (x.give t)).Accounted ms := by
  have regular := h.regular x (Array.mem_of_getElem? hx)
  have emitted := emitted_setFeed (v := { v.note (.tick t) with requests := n }) (y := x.give t) hx
  have one : (x.give t).emitted = x.emitted + if t.isTransaction then 1 else 0 := by
    rw [FeedTask.emitted, FeedTask.give, List.countP_append, List.countP_singleton]
    rfl
  have counted : (Activity.tick t :: v.log).countP Activity.counts =
      v.log.countP Activity.counts + if t.isTransaction then 1 else 0 := by
    rw [List.countP_cons]
    cases t <;> rfl
  refine ⟨h.queries, ?_, fun z hz => ?_⟩
  · have total := h.total
    change (Activity.tick t :: v.log).countP Activity.counts = v.queries.size + _
    rw [counted, total]
    change _ = v.emitted + _ at emitted
    omega
  · rcases mem_setFeed hz with old | rfl
    · exact h.regular z old
    · exact regular_give regular ht

theorem Accounted.waits {y z : QueryTask} (h : v.Accounted ms) (hy : v.queries[i]? = some y) (same : z.query = y.query) :
    (v.setQuery i z).Accounted ms := by
  refine ⟨(queries_setQuery hy same).trans h.queries, ?_, h.regular⟩
  change _ = (v.queries.set! i z).size + _
  rw [Array.set!_eq_setIfInBounds, Array.size_setIfInBounds]
  exact h.total

theorem Accounted.asks {q : Query} {s : Surroundings} (h : v.Accounted ms) (hm : m.query? = some q) :
    { v.count q.activity with queries := v.queries.push { query := q, surroundings := s } }.Accounted (ms ++ [m]) := by
  refine ⟨?_, ?_, h.regular⟩
  · rw [received_concat, hm, ← h.queries, Array.toList_push, List.map_append]
    rfl
  · have counts : q.activity.counts = true := by cases q <;> rfl
    change (q.activity :: v.log).countP Activity.counts = (v.queries.push _).size + v.emitted
    rw [List.countP_cons_of_pos counts, h.total, Array.size_push]
    omega

theorem Accounted.subscribes {p : Protocol} {y : FeedTask} (h : v.Accounted ms) (place : y.place = 0) (sent : y.sent = [])
    (phase : y.phase = .idle) :
    { v.note (subscriptionActivity p) with feeds := v.feeds.push y }.Accounted ms := by
  refine ⟨h.queries, ?_, fun z hz => ?_⟩
  · have uncounted : (subscriptionActivity p).counts ≠ true := by cases p <;> simp [subscriptionActivity, Activity.counts]
    change (subscriptionActivity p :: v.log).countP Activity.counts =
      v.queries.size + ((v.feeds.push y).toList.map FeedTask.emitted).sum
    rw [List.countP_cons_of_neg uncounted, h.total, Array.toList_push]
    simp [emitted, FeedTask.emitted, sent]
  · rcases Array.mem_push.1 hz with old | rfl
    · exact h.regular z old
    · refine ⟨?_, fun pacing => ?_⟩
      · rw [sent, place]
        rfl
      · rw [phase] at pacing
        cases pacing

theorem Accounted.quiet (h : v.Accounted ms) (hm : m.query? = none) : v.Accounted (ms ++ [m]) := by
  refine ⟨?_, h.total, h.regular⟩
  rw [received_concat, hm, h.queries]
  simp

theorem Accounted.move (h : v.Accounted ms) (o : Occurs v m v') : v'.Accounted (ms ++ [m]) := by
  have regular : ∀ {j : ℕ} {x : FeedTask}, v.feeds[j]? = some x → x.Regular :=
    fun hx => h.regular _ (Array.mem_of_getElem? hx)
  cases o with
  | asks c s hr => exact h.asks (query?_receive hr)
  | subscribes c s hr => exact (h.subscribes rfl rfl rfl).quiet (by simp only [Move.query?, hr])
  | passes c s hr => exact h.quiet (by simp only [Move.query?, hr])
  | answers hx hp | drops hx hp =>
    apply Accounted.quiet _ rfl
    exact h.waits hx rfl
  | paces hx hp ht =>
    apply Accounted.quiet _ rfl
    exact h.goes_on hx ⟨(regular hx).sent, fun _ => ht⟩ rfl
  | fails hx hp ht => exact (h.gives hx ht).quiet rfl
  | ends hx hp ht | leaves hx hp =>
    apply Accounted.quiet _ rfl
    exact h.goes_on hx ⟨(regular hx).sent, fun pacing => by cases pacing⟩ rfl
  | emits hx hp ht =>
    subst ht
    exact (h.gives hx ((regular hx).pacing hp)).quiet rfl
  | reports =>
    apply Accounted.quiet _ rfl
    exact ⟨h.queries, h.total, h.regular⟩

theorem faithful_of_run (h : ({} : Service).run ms = some v) : v.Faithful :=
  run_induction (P := fun _ v => v.Faithful) h ⟨rfl, rfl⟩ fun _ _ _ _ ih o => ih.move o

theorem accounted_of_run (h : ({} : Service).run ms = some v) : v.Accounted ms := by
  refine run_induction h ⟨rfl, rfl, fun x hx => ?_⟩ fun _ _ _ _ ih o => ih.move o
  exact absurd hx (Array.not_mem_empty x)

theorem toNat_ofNat_of_sum {n : ℕ} {ns : List ℕ} (hn : n ∈ ns) (small : ns.sum < 0x10000000000000000) :
    (UInt64.ofNat n).toNat = n := by
  apply UInt64.toNat_ofNat_of_lt'
  exact Nat.lt_of_le_of_lt (List.le_sum_of_mem hn) small

/-- Every request is in one report, or in the count that has yet to be reported, and in no other.

However queries over either transport, subscriptions and reports come one after the other, at every moment what was reported
and what the counter shows make up the queries that arrived and the transactions that subscribers were given. What was
reported is what counts between one report and the next. A query counts as soon as it arrives and once, whichever accounts it
asks for and whether or not the client waits for its answer. Subscribers are given the ticks of their feeds, of which a
failure does not count. -/
theorem requests_conserved (h : ({} : Service).run ms = some v)
    (small : (received ms).length + v.emitted < 0x10000000000000000) :
    (v.reports.map UInt64.toNat).sum + v.requests.toNat = (received ms).length + v.emitted ∧
    v.reports.map UInt64.toNat = v.tally.reported ∧ v.requests.toNat = v.tally.requests ∧
    (v.log.splitOnP Activity.reports).map (List.countP Activity.counts) = v.requests.toNat :: v.reports.map UInt64.toNat ∧
    v.queries.toList.map QueryTask.query = received ms ∧
    ∀ x ∈ v.feeds, x.sent = ticks x.config x.surroundings x.place := by
  have faithful := faithful_of_run h
  have accounted := accounted_of_run h
  have sum : v.tally.reported.sum + v.tally.requests = (received ms).length + v.emitted := by
    rw [← accounted.queries, List.length_map, Array.length_toList, ← accounted.total]
    exact Tally.sum_noteAll v.log
  have fits : ∀ n ∈ v.tally.requests :: v.tally.reported, (UInt64.ofNat n).toNat = n := by
    intro n hn
    apply toNat_ofNat_of_sum hn
    rw [List.sum_cons]
    omega
  have requests : v.requests.toNat = v.tally.requests := by
    rw [faithful.requests]
    exact fits _ List.mem_cons_self
  have reports : v.reports.map UInt64.toNat = v.tally.reported := by
    rw [faithful.reports, List.map_map]
    exact (List.map_congr_left fun n hn => fits n (List.mem_cons_of_mem _ hn)).trans (List.map_id _)
  refine ⟨?_, reports, requests, ?_, accounted.queries, fun x hx => (accounted.regular x hx).sent⟩
  · rw [reports, requests, sum]
  · rw [reports, requests]
    exact Tally.noteAll_segments v.log

/-- Both transports at once: accounts that are known and others that are not, one by one and in a batch; a client that does
not wait, a subscription that fails and one that is left. -/
def crowd : List Move :=
  let c : Config := { failStreamAfter := some 1 }
  let s : Surroundings := { random := fun n => n, clock := fun _ => { seconds := 1714557600, nanos := 0 } }
  [.receive c s (.get "/api/v1/accounts/missing-1/balance"), .receive c s (.get "/health"),
    .receive c s (.get "/api/v1/transactions/stream?rate=100"), .receive c s (.getBalance "0.0.7"), .poll 0,
    .receive c s (.streamTransactions 0), .poll 1, .emit 0, .report, .answer 0, .drop 1, .poll 0,
    .receive c s (.getBalances ["0.0.7", "missing-1", "0.0.7"]), .emit 1, .leave 1, .poll 0, .report, .answer 2,
    .receive c s (.getBalance "missing-1")]

theorem requests_of_crowd : ∃ v, ({} : Service).run crowd = some v ∧ (received crowd).length = 4 ∧ v.emitted = 2 ∧
    v.reports = [2, 3] ∧ v.requests = 1 ∧
    (v.reports.map UInt64.toNat).sum + v.requests.toNat = (received crowd).length + v.emitted := by
  have facts : (({} : Service).run crowd).map (fun v => ((received crowd).length, v.emitted, v.reports, v.requests)) =
      some (4, 2, [2, 3], 1) := by decide +kernel
  obtain ⟨v, h, hv⟩ := Option.map_eq_some_iff.1 facts
  simp only [Prod.mk.injEq] at hv
  obtain ⟨arrived, emitted, reports, requests⟩ := hv
  exact ⟨v, h, arrived, emitted, reports, requests, (requests_conserved h (by omega)).1⟩

end Service

end LedgerLoad.MockLedger
