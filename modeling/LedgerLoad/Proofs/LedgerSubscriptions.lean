import Mathlib.Data.List.TakeDrop
import LedgerLoad.Proofs.EventRoundTrip
import LedgerLoad.Proofs.RunnerOutcomes
import LedgerLoad.Rehearsal.Ledger

/-!
A subscription to the mock ledger brings the same over REST and over gRPC.

On either transport a request reaches a feed with its rate, as far as the transport can tell it, and the client is handed the
transactions of the feed, numbered from 0, with their six fields; then the loss of the feed, if there is one, and nothing
more.
-/

set_option autoImplicit false

namespace LedgerLoad

open EventStream (Item eventOfTransaction heard Entry Amount Decoder.byteOrderMark)
open MockLedger (Config Surroundings Tick Transaction)

variable {t : RestTarget} {c : Config} {s : Surroundings} {rate n : Nat} {text : List Char}

/-! ### Queries -/

namespace Text

theorem parseNumber_decimal {most n : Nat} (h : n ≤ most) : parseNumber most (decimal n) = .ok n := by
  have written : decimal n ≠ [] := Nat.toDigits_ne_nil
  rw [parseNumber_digits written fun c hc => isDigit_of_mem_decimal hc, digitsValue_decimal, if_pos h]

theorem Percent.decode_plain (h : ∀ c ∈ text, c ≠ '%') : Percent.decode text = Utf8.encode text := by
  induction text with
  | nil => rfl
  | cons c text ih =>
    rw [Percent.decode, ih fun c hc => h c (List.mem_cons_of_mem _ hc)]
    · rfl
    · rintro a b r rfl -
      exact h '%' List.mem_cons_self rfl

end Text

namespace MockLedger.Rest

theorem formText_plain (h : ∀ c ∈ text, c ≠ '+' ∧ c ≠ '%') : formText text = String.ofList text := by
  have same : (text.map fun c => if c = '+' then ' ' else c) = text :=
    (List.map_congr_left fun c hc => if_neg (h c hc).1).trans (List.map_id' text)
  rw [formText, same, Text.Percent.decode_plain fun c hc => (h c hc).2, Text.Utf8.decodeLossy_encode]

theorem formPairs_rate (n : Nat) : formPairs ("rate".toList ++ '=' :: Text.decimal n) = [("rate", toString n)] := by
  have digits : ∀ c ∈ Text.decimal n, c ≠ '&' ∧ c ≠ '+' ∧ c ≠ '%' := by
    intro c hc
    have digit := Text.isDigit_of_mem_decimal hc
    refine ⟨?_, ?_, ?_⟩ <;> rintro rfl <;> cases digit
  have single : Text.splitOn (· == '&') ("rate".toList ++ '=' :: Text.decimal n) =
      ["rate".toList ++ '=' :: Text.decimal n] := by
    have letters : ∀ c ∈ "rate".toList, (c == '&') = false := by simp
    refine Text.splitOn_of_none fun c hc => ?_
    rcases List.mem_append.1 hc with hc | hc
    · exact letters c hc
    · rcases List.mem_cons.1 hc with rfl | hc
      · rfl
      · simpa using (digits c hc).1
  have cut : ("rate".toList ++ '=' :: Text.decimal n).span (· != '=') = ("rate".toList, '=' :: Text.decimal n) := by
    rw [List.span_eq_takeWhile_dropWhile]
    rfl
  have name : formText "rate".toList = "rate" := formText_plain (by simp)
  have value : formText (Text.decimal n) = toString n := by
    rw [formText_plain fun c hc => (digits c hc).2, ← Text.toList_toString, String.ofList_toList]
  rw [formPairs, single, List.filter_cons_of_pos rfl, List.filter_nil, List.map_singleton, cut]
  simp only [name, List.drop_succ_cons, List.drop_zero, value]

theorem rateOf_rate (h : n ≤ rateLimit) : rateOf none [("rate", toString n)] = .ok n := by
  rw [rateOf, if_pos rfl, Text.toList_toString, Text.parseNumber_decimal h]
  rfl

def streamPath : List Char := "/api/v1/transactions/stream".toList

theorem route_stream : route (String.ofList streamPath) = .transactions 0 := by
  decide +kernel

theorem cut_target {path query : List Char} (plain : ∀ c ∈ path, c ≠ '?' ∧ c ≠ '#') (h : '#' ∉ query)
    (marked : ∀ c ∈ query.head?, c = '?') : ((path ++ query).takeWhile (· != '#')).span (· != '?') = (path, query) := by
  have whole : (path ++ query).takeWhile (· != '#') = path ++ query := by
    apply List.takeWhile_eq_self_iff.2
    intro c hc
    rcases List.mem_append.1 hc with hc | hc
    · simpa using (plain c hc).2
    · simpa using fun same : c = '#' => h (same ▸ hc)
  rw [whole, List.span_eq_takeWhile_dropWhile, List.takeWhile_append_of_pos fun c hc => by simpa using (plain c hc).1,
    List.dropWhile_append_of_pos fun c hc => by simpa using (plain c hc).1]
  cases query with
  | nil => simp
  | cons c query =>
    obtain rfl := marked c rfl
    simp

theorem route_stream_query {q : List Char} (h : '#' ∉ q) : route (String.ofList (streamPath ++ '?' :: q)) =
    match rateOf none (formPairs q) with
    | .ok rate => .transactions rate
    | .error why => .badQuery why := by
  have letters : streamPath.all (fun c => c != '?' && c != '#') = true := by decide
  have plain : ∀ c ∈ streamPath, c ≠ '?' ∧ c ≠ '#' := by
    intro c hc
    simpa using List.all_eq_true.1 letters c hc
  have cut : ((streamPath ++ '?' :: q).takeWhile (· != '#')).span (· != '?') = (streamPath, '?' :: q) :=
    cut_target plain (by simpa using h) (by simp)
  have segments : Text.splitOn (· == '/') streamPath =
      [[], "api".toList, "v1".toList, "transactions".toList, "stream".toList] := by decide
  rw [route, String.toList_ofList, cut]
  simp only [segments]
  rfl

end MockLedger.Rest

/-! ### Requests -/

/-- The base is the root of a service reached over HTTP, and has no query of its own. -/
structure RestTarget.AtRoot (t : RestTarget) : Prop where
  scheme : t.base.scheme = "http" ∨ t.base.scheme = "https"
  path : t.base.path = .segments [[]]
  query : t.base.query = none ∨ t.base.query = some []

def RestTarget.routeOf (t : RestTarget) (rate : Nat) : MockLedger.Rest.Route :=
  MockLedger.Rest.route (String.ofList ((t.streamRequest rate).url.path.text ++ (t.streamRequest rate).url.queryText))

theorem Url.queryText_appendPair {u : Url} (h : u.query = none ∨ u.query = some []) (name value : String) :
    (u.appendPair name value).queryText = '?' :: (name.toList ++ '=' :: value.toList) := by
  rcases h with h | h <;> rw [Url.appendPair, Url.queryText, h]

namespace RestTarget.AtRoot

theorem endpoint (root : t.AtRoot) : t.endpoint ["api", "v1", "transactions", "stream"] =
    { t.base with path := .segments ["api".toList, "v1".toList, "transactions".toList, "stream".toList] } := by
  have special : Url.isSpecial t.base.scheme = true := by rcases root.scheme with h | h <;> rw [h] <;> decide
  have file : ¬ t.base.scheme = "file" := by rcases root.scheme with h | h <;> rw [h] <;> decide
  simp only [RestTarget.endpoint, Url.extend, root.path, special, file, decide_false]
  rfl

theorem routeOf (root : t.AtRoot) (hr : rate < 0x100000000) : t.routeOf rate = .transactions rate := by
  have path : (t.endpoint ["api", "v1", "transactions", "stream"]).path.text = MockLedger.Rest.streamPath := by
    rw [root.endpoint]
    rfl
  have query : (t.endpoint ["api", "v1", "transactions", "stream"]).query = t.base.query := by rw [root.endpoint]
  rw [RestTarget.routeOf, RestTarget.streamRequest]
  by_cases asked : rate > 0
  · have plain : '#' ∉ "rate".toList ++ '=' :: Text.decimal rate := by
      intro h
      rcases List.mem_append.1 h with h | h
      · exact absurd h (by decide)
      · rcases List.mem_cons.1 h with h | h
        · cases h
        · have digit := Text.isDigit_of_mem_decimal h
          cases digit
    rw [if_pos asked, Url.queryText_appendPair (by rw [query]; exact root.query), Text.toList_toString]
    change MockLedger.Rest.route (String.ofList ((t.endpoint _).path.text ++ _)) = _
    rw [path, MockLedger.Rest.route_stream_query plain, MockLedger.Rest.formPairs_rate,
      MockLedger.Rest.rateOf_rate (show rate ≤ 0xFFFFFFFF by omega)]
  · obtain rfl : rate = 0 := by omega
    rw [if_neg asked, path, Url.queryText, query]
    rcases root.query with h | h
    · rw [h]
      simpa using MockLedger.Rest.route_stream
    · rw [h]
      exact MockLedger.Rest.route_stream_query (q := []) (by simp)

end RestTarget.AtRoot

/-! ### Items -/

namespace Rehearsal

open MockLedger (ticks tick)

def events (s : Surroundings) (k : Nat) : List Item :=
  (List.range k).map fun n => .ok (eventOfTransaction (MockLedger.transaction s n))

/-- The items that the first `k` ticks of a feed come to, for every `k`: the events of the feed, numbered from 0; if it is
told to fail after `n` of them, the loss is the item after these, and there are no more. -/
structure Delivers (c : Config) (s : Surroundings) (lost : TargetError) (items : Nat → List Item) : Prop where
  numbered : ∀ n, (eventOfTransaction (MockLedger.transaction s n)).txId = "tx-" ++ toString n
  unlimited : c.failStreamAfter = none → ∀ k, items k = events s k
  limited : ∀ n, c.failStreamAfter = some n → ∀ k, items k = events s (min k n) ++ if n < k then [.error lost] else []

def transactions (s : Surroundings) (k : Nat) : List Tick :=
  (List.range k).map fun n => .transaction (MockLedger.transaction s n)

theorem ticks_unlimited (h : c.failStreamAfter = none) (k : Nat) : ticks c s k = transactions s k := by
  have each : tick c s = fun n => some (Tick.transaction (MockLedger.transaction s n)) := by
    funext n
    rw [tick, h]
  rw [ticks, each, List.filterMap_eq_map', transactions]

theorem ticks_limited (h : c.failStreamAfter = some n) (k : Nat) :
    ticks c s k = transactions s (min k n) ++ if n < k then [.failure] else [] := by
  induction k with
  | zero => simp [ticks, transactions]
  | succ k ih =>
    rw [MockLedger.ticks_succ, ih, tick, h]
    rcases Nat.lt_trichotomy k n with before | rfl | after
    · have one : min (k + 1) n = k + 1 := by omega
      have all : min k n = k := by omega
      have early : ¬ n < k := by omega
      have still : ¬ n < k + 1 := by omega
      rw [one, all]
      simp [early, still, before, transactions, List.range_succ]
    · simp [transactions]
    · have whole : min k n = n := by omega
      have past : min (k + 1) n = n := by omega
      have late : ¬ k < n := by omega
      have other : k ≠ n := by omega
      have gone : n < k + 1 := by omega
      simp [whole, past, late, other, after, gone]

theorem amount_transaction (s : Surroundings) (n : Nat) : Amount (MockLedger.transaction s n).amount := by
  have value : (MockLedger.transaction s n).amount = ((1 + s.random (3 * n + 2) % 99999 : Nat) : Int) := rfl
  rw [value, Amount]
  omega

/-- What a client is handed for a tick over a transport that tells of the loss like this. -/
def itemOf (lost : TargetError) : Tick → Item
  | .transaction x => .ok (eventOfTransaction x)
  | .failure => .error lost

theorem delivers_of_ticks (c : Config) (s : Surroundings) (lost : TargetError) :
    Delivers c s lost fun k => (ticks c s k).map (itemOf lost) := by
  have same : ∀ k, (transactions s k).map (itemOf lost) = events s k := by
    intro k
    rw [transactions, List.map_map]
    rfl
  refine ⟨fun _ => rfl, fun h k => ?_, fun n h k => ?_⟩
  · rw [ticks_unlimited h, same]
  · rw [ticks_limited h, List.map_append, same]
    split <;> rfl

/-! ### REST -/

def beat : Entry := .comment [' '] (by decide) true .lf

def entriesOf (beats : Nat → Nat) : List Tick → List Entry
  | [] => List.replicate (beats 0) beat
  | x :: xs => List.replicate (beats 0) beat ++ .tick x :: entriesOf (fun n => beats (n + 1)) xs

theorem flatten_pieces (beats : Nat → Nat) (ts : List Tick) :
    (MockLedger.Rest.pieces beats ts).flatten = (entriesOf beats ts).flatMap Entry.text := by
  have alive (n : Nat) : (List.replicate n MockLedger.Rest.keepAlive).flatten = (List.replicate n beat).flatMap Entry.text := by
    rw [List.flatMap_def, List.map_replicate]
    rfl
  induction ts generalizing beats with
  | nil => exact alive (beats 0)
  | cons x xs ih =>
    rw [MockLedger.Rest.pieces, entriesOf, List.flatten_append, List.flatten_cons, ih, alive, List.flatMap_append,
      List.flatMap_cons]
    rfl

theorem ticks_entriesOf (beats : Nat → Nat) (ts : List Tick) : (entriesOf beats ts).filterMap Entry.tick? = ts := by
  have silent (n : Nat) : (List.replicate n beat).filterMap Entry.tick? = [] := by
    rw [List.filterMap_eq_nil_iff]
    intro x hx
    rw [List.eq_of_mem_replicate hx]
    rfl
  induction ts generalizing beats with
  | nil => exact silent (beats 0)
  | cons x xs ih =>
    rw [entriesOf, List.filterMap_append, silent, List.nil_append, List.filterMap_cons, ih]
    rfl

theorem mem_entriesOf {beats : Nat → Nat} {ts : List Tick} {x : Entry} (h : x ∈ entriesOf beats ts) :
    x = beat ∨ ∃ t ∈ ts, x = .tick t := by
  induction ts generalizing beats with
  | nil => exact .inl (List.eq_of_mem_replicate h)
  | cons y ys ih =>
    rcases List.mem_append.1 h with h | h
    · exact .inl (List.eq_of_mem_replicate h)
    · rcases List.mem_cons.1 h with rfl | h
      · exact .inr ⟨y, List.mem_cons_self, rfl⟩
      · rcases ih h with rfl | ⟨t, ht, rfl⟩
        · exact .inl rfl
        · exact .inr ⟨t, List.mem_cons_of_mem _ ht, rfl⟩

theorem tick_mem_entriesOf {beats : Nat → Nat} {ts : List Tick} {x : Tick} (h : .tick x ∈ entriesOf beats ts) : x ∈ ts := by
  rcases mem_entriesOf h with comment | ⟨t, ht, same⟩
  · cases comment
  · cases same
    exact ht

theorem unmarked_of_entries {ts : List Tick} {xs : List Entry} (each : ∀ x ∈ xs, x = beat ∨ ∃ t ∈ ts, x = .tick t) :
    (xs.flatMap Entry.text).head? ≠ some EventStream.Decoder.byteOrderMark := by
  cases xs with
  | nil => simp
  | cons x xs =>
    rcases each x List.mem_cons_self with rfl | ⟨t, -, rfl⟩
    · have colon : ((beat :: xs).flatMap Entry.text).head? = some ':' := rfl
      rw [colon]
      decide
    · have letter : ((.tick t :: xs).flatMap Entry.text).head? = some 'e' := rfl
      rw [letter]
      decide

theorem items_of_stream (beats : Nat → Nat) {ts : List Tick} (amounts : ∀ x, .transaction x ∈ ts → Amount x.amount) :
    EventStream.items (MockLedger.Rest.stream beats ts) none = some (ts.map heard) := by
  have body : (MockLedger.Rest.stream beats ts).flatten = Text.Utf8.encode ((entriesOf beats ts).flatMap Entry.text) := by
    rw [← flatten_pieces, MockLedger.Rest.stream, Text.Utf8.encode, List.flatMap_def, List.map_flatten, List.flatten_flatten,
      List.map_map]
    rfl
  rw [EventStream.items_of_text body (unmarked_of_entries fun x hx => mem_entriesOf hx),
    EventStream.read_entries fun x hx => amounts x (tick_mem_entriesOf hx), ticks_entriesOf]

theorem amounts_ticks (c : Config) (s : Surroundings) (k : Nat) :
    ∀ x, .transaction x ∈ ticks c s k → Amount x.amount := by
  intro x hx
  obtain ⟨n, -, hn⟩ := List.mem_filterMap.1 hx
  obtain rfl : MockLedger.transaction s n = x := by
    rw [tick] at hn
    split at hn
    · simpa using hn
    · split at hn
      · simpa using hn
      · split at hn
        · simp at hn
        · cases hn
  exact amount_transaction s n

theorem restItems_eq (root : t.AtRoot) (hr : rate < 0x100000000) (k : Nat) :
    restItems c s t rate k = .ok (some ((ticks c s k).map heard)) := by
  have response : restResponse c s k (t.streamRequest rate) =
      { contentType := some "text/event-stream", body := MockLedger.Rest.stream s.beats (ticks c s k) } := by
    have route := root.routeOf hr
    rw [RestTarget.routeOf] at route
    simp only [restResponse, route]
  rw [restItems, response, ← items_of_stream s.beats (amounts_ticks c s k)]
  rfl

/-! ### gRPC -/

theorem itemsOf_transactions (xs : List Transaction) (rest : List Tick) :
    GrpcTarget.itemsOf (MockLedger.Grpc.stream (xs.map .transaction ++ rest)) =
      xs.map (fun x => .ok (eventOfTransaction x)) ++ GrpcTarget.itemsOf (MockLedger.Grpc.stream rest) := by
  induction xs with
  | nil => rfl
  | cons x xs ih => exact congrArg (Except.ok (eventOfTransaction x) :: ·) ih

theorem ticks_cases (c : Config) (s : Surroundings) (k : Nat) : ∃ xs : List Transaction,
    ticks c s k = xs.map .transaction ++ [] ∨ ticks c s k = xs.map .transaction ++ [.failure] := by
  have begun : ∀ k, transactions s k = ((List.range k).map (MockLedger.transaction s)).map .transaction := fun k =>
    List.map_map.symm
  cases h : c.failStreamAfter with
  | none => exact ⟨_, .inl (by rw [ticks_unlimited h, begun, List.append_nil])⟩
  | some n =>
    refine ⟨(List.range (min k n)).map (MockLedger.transaction s), ?_⟩
    rw [ticks_limited h, begun]
    split
    · exact .inr rfl
    · exact .inl rfl

theorem grpcItems_eq (c : Config) (s : Surroundings) (k : Nat) :
    grpcItems c s k = .ok ((ticks c s k).map (itemOf (.grpc ⟨.unavailable, MockLedger.feedLost⟩))) := by
  change Except.ok (GrpcTarget.itemsOf (MockLedger.Grpc.stream (ticks c s k))) = _
  obtain ⟨xs, h | h⟩ := ticks_cases c s k
  · rw [h, itemsOf_transactions, List.map_append, List.map_map]
    rfl
  · rw [h, itemsOf_transactions, List.map_append, List.map_map]
    rfl

theorem grpcRate_eq (rate : Nat) : grpcRate rate = min rate 0x7FFFFFFF := Int.toNat_natCast _

/-! ### Both -/

def restLost : TargetError := .stream MockLedger.feedLost

def grpcLost : TargetError := .grpc ⟨.unavailable, MockLedger.feedLost⟩

def taken : Item → StreamItem
  | .ok _ => .event
  | .error e => .error e

open Load Load.World in
/-- What a worker records whose subscription brings these items and then ends: as long as there is no stop, no fault of the
target, and the deadline is ahead, never more than this and in this order, exactly this by the time it is gone, and it gets
there by itself. -/
def Records (items : List Item) (told : List (Bool × Option String)) : Prop :=
  ∀ {accounts : List String} {as : List Action} {w : World} {k i : Nat} {r : RunCall} {x : Worker},
    (initial accounts).run as = some w → Claims accounts as k → w.runs[k]? = some r → r.config.scenario = .stream →
    w.workers[i]? = some x → w.Unhindered i → heardBy i w.log <+: items.map taken ++ [.close] →
    (yields i (initial accounts) as).map Sample.told <+: told ∧
    (x.terminated = true → (yields i (initial accounts) as).map Sample.told = told) ∧
    ∃ bs v y, (initial accounts).run (as ++ bs) = some v ∧ (∀ a ∈ bs, a.worker? = some i) ∧
      v.workers[i]? = some y ∧ y.terminated = true ∧ (yields i (initial accounts) (as ++ bs)).map Sample.told = told

open Load Load.World in
theorem Delivers.records {lost : TargetError} {items : Nat → List Item} (h : Delivers c s lost items)
    (hn : c.failStreamAfter = some n) : Records (items (n + 1)) (toldOf n lost) := by
  have brought : (items (n + 1)).map taken ++ [.close] = lostAfter n lost := by
    have all : (events s n).map taken = List.replicate n .event := by
      have each : taken ∘ (fun n => (.ok (eventOfTransaction (MockLedger.transaction s n)) : Item)) = fun _ => .event := rfl
      rw [events, List.map_map, each, List.map_const', List.length_range]
    rw [h.limited n hn, Nat.min_eq_right (Nat.le_succ n), if_pos (Nat.lt_succ_self n), List.map_append, all,
      List.append_assoc, lostAfter]
    rfl
  intro accounts as w k i r x hrun hk hr hs hx hu hp
  rw [brought] at hp
  exact tells_of_lost_subscription hrun (claimedBy_of_claims hrun hk hr) hs hx hu hp

/-- A subscription to the mock ledger brings the same events over REST and over gRPC, each with the six fields of the
transaction that the feed made up, however many comments keep the one over REST alive: all of them if the ledger is not
told to fail, else so many and then the loss of the feed, of which a worker records so many successes and one failure. The
rate reaches the feed as it is, but for rates that gRPC cannot tell, which reach it as the largest that it can; one that
was asked for never gets lost. -/
theorem subscriptions_agree (root : t.AtRoot) (hr : rate < 0x100000000) (c : Config) (s s' : Surroundings) :
    ∃ rest grpc : Nat → List Item,
      (∀ k, restItems c s t rate k = .ok (some (rest k))) ∧ Delivers c s restLost rest ∧
      (∀ k, grpcItems c s' k = .ok (grpc k)) ∧ Delivers c s' grpcLost grpc ∧
      t.routeOf rate = .transactions rate ∧ grpcRate rate = min rate 0x7FFFFFFF ∧ (grpcRate rate = 0 ↔ rate = 0) ∧
      ∀ n, c.failStreamAfter = some n →
        Records (rest (n + 1)) (Load.World.toldOf n restLost) ∧ Records (grpc (n + 1)) (Load.World.toldOf n grpcLost) := by
  have heardAs : itemOf restLost = heard := by
    funext t
    cases t <;> rfl
  have rest := delivers_of_ticks c s restLost
  have grpc := delivers_of_ticks c s' grpcLost
  refine ⟨_, _, fun k => ?_, rest, grpcItems_eq c s', grpc, root.routeOf hr, grpcRate_eq rate, ?_, fun n hn => ?_⟩
  · rw [heardAs]
    exact restItems_eq root hr k
  · rw [grpcRate_eq]
    omega
  · exact ⟨rest.records hn, grpc.records hn⟩

def failing : Config := { failStreamAfter := some 1 }

def surroundings : Surroundings :=
  { random := fun n => n, clock := fun _ => { seconds := 1714557600, nanos := 0 }, beats := fun n => n }

open Load in
def bereft : List Action :=
  let config : WorkloadConfig := { scenario := .stream, concurrency := 1, duration := Span.ofSecs 1 }
  .run config false :: List.replicate 5 (.advanceRun 0 false) ++
    [.work 0, .work 0, .subscribe 0, .answer 0 (.ok ()), .work 0, .work 0, .look 0 (some .event), .work 0, .work 0, .work 0,
      .work 0, .look 0 (some (.error restLost)), .work 0, .work 0, .work 0]

open Load Load.World in
theorem subscriptions_to_failing_ledger : ∃ t rest grpc,
    RestTarget.ofText "http://127.0.0.1:8080" = .ok t ∧
    restItems failing surroundings t 4294967295 2 = .ok (some rest) ∧ rest.map taken = [.event, .error restLost] ∧
    grpcItems failing surroundings 2 = .ok grpc ∧ grpc.map taken = [.event, .error grpcLost] ∧
    t.routeOf 4294967295 = .transactions 4294967295 ∧ grpcRate 4294967295 = 2147483647 ∧
    (yields 0 (initial []) bereft).map Sample.told = [(true, none), (false, some "Stream error: upstream feed lost")] := by
  let t : RestTarget :=
    ⟨{ scheme := "http", host := some (.ipv4 2130706433), port := some 8080, path := .segments [[]] }⟩
  have root : t.AtRoot := ⟨.inl rfl, rfl, .inl rfl⟩
  have parsed : (RestTarget.ofText "http://127.0.0.1:8080").toOption = some t := by decide +kernel
  have made : RestTarget.ofText "http://127.0.0.1:8080" = .ok t := by
    cases h : RestTarget.ofText "http://127.0.0.1:8080" with
    | error e => rw [h] at parsed; cases parsed
    | ok u => rw [h] at parsed; cases parsed; rfl
  obtain ⟨rest, grpc, hrest, brings, hgrpc, brings', route, rate, _, records⟩ :=
    subscriptions_agree root (by decide : 4294967295 < 0x100000000) failing surroundings surroundings
  have two : rest 2 = events surroundings 1 ++ [.error restLost] := brings.limited 1 rfl 2
  have two' : grpc 2 = events surroundings 1 ++ [.error grpcLost] := brings'.limited 1 rfl 2
  obtain ⟨w, h⟩ := Option.isSome_iff_exists.1 (show ((initial []).run bereft).isSome = true by decide +kernel)
  have facts : ((initial []).run bereft).map (fun w => (w.state, w.stopped, decide (w.now < w.deadline),
      w.log.all (!·.troubles))) = some (.running, false, true, true) := by decide +kernel
  have heard : ((initial []).run bereft).map (fun w => heardBy 0 w.log) = some [.event, .error restLost] := by
    decide +kernel
  have parts : ((initial []).run bereft).map (fun w => (w.runs.size, (w.runs[0]?).map fun r => r.config.scenario,
      (w.workers[0]?).map Worker.terminated)) = some (1, some .stream, some true) := by decide +kernel
  rw [h] at facts heard parts
  simp only [Option.map_some, Option.some.injEq, Prod.mk.injEq, Option.map_eq_some_iff] at facts heard parts
  obtain ⟨state, running, early, clean⟩ := facts
  obtain ⟨alone, ⟨r, hr, hs⟩, x, hx, ended⟩ := parts
  have hk : Claims [] bereft 0 := claims_of_alone h (by rw [state]; decide) alone
  have unhindered : w.Unhindered 0 := by
    refine ⟨running, by simpa using early, fun e t he => ?_, fun t he => ?_⟩
    · exact Bool.false_ne_true (List.all_eq_true.1 clean _ he)
    · exact Bool.false_ne_true (List.all_eq_true.1 clean _ he)
  have told := ((records 1 rfl).1 h hk hr hs hx unhindered (by rw [heard, two]; exact ⟨[.close], rfl⟩)).2.1 ended
  exact ⟨t, rest 2, grpc 2, made, hrest 2, by rw [two]; rfl, hgrpc 2, by rw [two']; rfl, route, rate, told⟩

end Rehearsal

end LedgerLoad
