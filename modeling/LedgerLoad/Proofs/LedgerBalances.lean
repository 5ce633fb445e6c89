import LedgerLoad.Proofs.LedgerSubscriptions
import LedgerLoad.Proofs.RequestPaths
import LedgerLoad.Proofs.RunnerReplies

/-!
The mock ledger knows an account over REST exactly if it knows it over gRPC, alone or in a batch.

The rule is the same in all three handlers, and each transport has words of its own for a refusal. Through the clients it is
an error on either transport, so a worker that asks for the same accounts records the same successes.
-/

set_option autoImplicit false

namespace LedgerLoad

/-! ### Paths -/

namespace Url

theorem plain_accountSegments (special : Bool) (account : List Char) :
    ∀ item ∈ accountSegments special account, ∀ c ∈ item, c ≠ '/' ∧ c ≠ '?' ∧ c ≠ '#' := by
  intro item hitem c hc
  have free : ¬(c = '/' ∨ c = '?' ∨ c = '#') := fun mark => mark_not_mem_accountSegments mark _ _ item hitem hc
  simpa using free

/-- An account that survives and is not empty fills its segment, and no other is decoded from one that is filled. -/
theorem accountSegments_filled_iff {special : Bool} {account : List Char} :
    (∃ x, accountSegments special account = [api, v1, accounts, x, balance] ∧ x ≠ [] ∧
      Text.Utf8.decode? (Text.Percent.decode x) = some account) ↔ account ≠ [] ∧ Survives account := by
  have blank : accountSegments special [] = [api, v1, accounts, [], balance] := by cases special <;> rfl
  have nothing : Text.Utf8.decode? (Text.Percent.decode []) = some [] := Text.Utf8.decode?_encode []
  constructor
  · rintro ⟨x, parts, filled, decoded⟩
    have nonempty : account ≠ [] := by
      rintro rfl
      simp [blank, filled.symm] at parts
    exact ⟨nonempty, (accountSegments_decoded_iff special nonempty).1 ⟨x, parts, decoded⟩⟩
  · rintro ⟨nonempty, survives⟩
    obtain ⟨x, parts, decoded⟩ := (accountSegments_decoded_iff special nonempty).2 survives
    refine ⟨x, parts, ?_, decoded⟩
    rintro rfl
    exact nonempty (Option.some.inj (nothing.symm.trans decoded)).symm

end Url

namespace MockLedger

variable {s s' : Surroundings} {account : String}

/-! ### Handlers -/

def refusalCodec : Json.Codec String :=
  Json.Fields.codec (.cons ⟨"error", .text, none⟩ .nil) (fun (text, ()) => text) (fun text => (text, ()))

def Balance.codec : Json.Codec Balance :=
  Json.Fields.codec
    (.cons ⟨"account_id", .text, none⟩ <| .cons ⟨"balance", .int, none⟩ <| .cons ⟨"timestamp", .text, none⟩ .nil)
    (fun (account, amount, timestamp, ()) => ⟨account, amount.toNat, timestamp⟩)
    (fun b => (b.account, b.amount, b.timestamp, ()))

theorem read_refusal (text : String) :
    Json.read refusalCodec.read (Json.record [("error", .text text)]).compact = .ok text := by
  have given : refusalCodec.Gives refusalCodec text text := by
    refine Json.Fields.codec_gives (y := (text, ())) ?_ (by decide)
    exact .cons rfl (Json.Codec.gives_text text) .nil
  obtain ⟨v, written, read⟩ := given.read
  cases written
  exact read Json.compactLayout Json.spaced_compactLayout

theorem read_balance {b : Balance} (h : b.amount < 0x8000000000000000) :
    Json.read Balance.codec.read b.json.compact = .ok b := by
  have given : Balance.codec.Gives Balance.codec b b := by
    have amount : Json.Codec.int.Gives Json.Codec.int (b.amount : Int) b.amount := Json.Codec.gives_int (by omega) (by omega)
    refine Json.Fields.codec_gives (y := (b.account, (b.amount : Int), b.timestamp, ())) ?_ (by decide)
    exact .cons rfl (Json.Codec.gives_text _) <| .cons rfl amount <| .cons rfl (Json.Codec.gives_text _) .nil
  obtain ⟨v, written, read⟩ := given.read
  cases written
  exact read Json.compactLayout Json.spaced_compactLayout

theorem amount_balanceOf (s : Surroundings) (account : String) : (balanceOf s account).amount < 1000000000 := by
  change 0 + s.random 0 % 1000000000 < 1000000000
  omega

theorem isOk_getBalance (s : Surroundings) (account : String) : (Grpc.getBalance s account).isOk = !isMissing account := by
  unfold Grpc.getBalance
  cases isMissing account <;> rfl

theorem handlers_agree (s s' : Surroundings) (account : String) :
    ((Rest.balance s account).status = 404 ↔ ∃ e, Grpc.getBalance s' account = .error e ∧ e.code = .notFound) ∧
    (∀ e, Grpc.getBalance s' account = .error e →
      (Rest.balance s account).status = 404 ∧ e = ⟨.notFound, notFoundText account⟩ ∧
      Json.read refusalCodec.read (Rest.balance s account).body = .ok e.message) ∧
    (∀ b, Grpc.getBalance s' account = .ok b →
      (Rest.balance s account).status = 200 ∧ b.account = account ∧
      ∃ b', Json.read Balance.codec.read (Rest.balance s account).body = .ok b' ∧ b'.account = account) := by
  cases known : isMissing account with
  | true =>
    rw [Rest.balance, Grpc.getBalance, if_pos known, if_pos known]
    refine ⟨⟨fun _ => ⟨_, rfl, rfl⟩, fun _ => rfl⟩, ?_, nofun⟩
    intro e he
    cases he
    exact ⟨rfl, rfl, read_refusal _⟩
  | false =>
    rw [Rest.balance, Grpc.getBalance, if_neg (by simp [known]), if_neg (by simp [known])]
    refine ⟨⟨nofun, fun ⟨e, he, _⟩ => nomatch he⟩, nofun, ?_⟩
    intro b hb
    cases hb
    have small := amount_balanceOf s account
    exact ⟨rfl, rfl, _, read_balance (by omega), rfl⟩

/-- Balances are made up one by one, and each is of the account that it was made up for. -/
theorem account_getBalances (s s' : Surroundings) (accounts : List String) :
    (Grpc.getBalances s accounts).map (·.account) = accounts.filter fun account => (Grpc.getBalance s' account).isOk := by
  simp only [isOk_getBalance]
  apply List.ext_getElem?
  intro n
  rw [List.getElem?_map, Grpc.getBalances, List.getElem?_mapIdx, Option.map_map]
  exact congrFun Option.map_id _

/-! ### Routes -/

namespace Rest

open Url (segmentsText)

variable {items : List (List Char)} {query : List Char}

/-- The path of a request is read in segments, and a query with nothing in it does not matter. -/
theorem route_eq_balance_iff (plain : ∀ item ∈ items, ∀ c ∈ item, c ≠ '/' ∧ c ≠ '?' ∧ c ≠ '#')
    (empty : query = [] ∨ query = ['?']) :
    route (String.ofList (segmentsText items ++ query)) = .balance account ↔
      ∃ x, items = [Url.api, Url.v1, Url.accounts, x, Url.balance] ∧ x ≠ [] ∧
        Text.Utf8.decode? (Text.Percent.decode x) = some account.toList := by
  have letters : ∀ c ∈ segmentsText items, c ≠ '?' ∧ c ≠ '#' := by
    intro c hc
    obtain ⟨item, hitem, hc⟩ := List.mem_flatMap.1 hc
    rcases List.mem_cons.1 hc with rfl | hc
    · decide
    · exact (plain item hitem c hc).2
  have cut : ((segmentsText items ++ query).takeWhile (· != '#')).span (· != '?') = (segmentsText items, query) := by
    rcases empty with rfl | rfl <;> exact cut_target letters (by simp) (by simp)
  have segments : Text.splitOn (· == '/') (segmentsText items) = [] :: items :=
    Url.splitOn_segmentsText fun item hitem slash => (plain item hitem _ slash).1 rfl
  rw [route, String.toList_ofList, cut]
  simp only [segments]
  constructor
  · intro h
    split at h
    · cases h
    · rename_i api v1 kind x last parts
      obtain rfl : items = [api, v1, kind, x, last] := List.tail_eq_of_cons_eq parts
      split at h
      · rename_i words
        obtain ⟨rfl, rfl, rfl, nonempty, rfl⟩ := words
        split at h
        · rename_i name decoded
          cases h
          exact ⟨x, rfl, nonempty, by rw [decoded, String.toList_ofList]⟩
        · cases h
      · cases h
    · split at h
      · split at h <;> cases h
      · cases h
    · cases h
  · rintro ⟨x, rfl, nonempty, decoded⟩
    refine (if_pos ⟨rfl, rfl, rfl, nonempty, rfl⟩).trans ?_
    rw [decoded]
    exact congrArg Route.balance String.ofList_toList

end Rest

end MockLedger

/-! ### Clients -/

theorem RestResponse.text_of_json (status : Nat) (ms : List (String × Json)) :
    RestResponse.text { status := status, contentType := some "application/json"
                        body := [(Json.record ms).compact.toUTF8.toList] } = (Json.record ms).compact := by
  have set : Text.charsetOf (some "application/json") = .utf8 := rfl
  have opening : ∃ rest, (Json.record ms).compact.toList = '\x7b' :: rest := by
    rw [Json.compact, String.toList_ofList, Json.Fields.render_record]
    exact ⟨_, rfl⟩
  obtain ⟨rest, opening⟩ := opening
  change String.ofList ((Text.charsetOf (some "application/json")).decodeMarked ([_].flatten)) = _
  rw [set, List.flatten_singleton, Text.Utf8.toList_toUTF8, opening]
  change String.ofList (Text.Utf8.decodeLossy (Text.Utf8.encode ('\x7b' :: rest))) = _
  rw [Text.Utf8.decodeLossy_encode, ← opening, String.ofList_toList]

theorem RestTarget.balanceResult_eq {r : RestResponse} (whole : r.cutOff = none) :
    RestTarget.balanceResult (.ok r) = if r.isSuccess then .ok () else .error (.status r.status r.text) := by
  unfold RestTarget.balanceResult RestResponse.check
  cases h : r.isSuccess with
  | true => simp [h, whole, bind, Except.bind, pure, Except.pure]
  | false => simp [h, bind, Except.bind]

section Clients

open MockLedger (Config Surroundings)

variable {t : RestTarget} {account : String}

/-- A request for a balance gets to the handler with the account as it is. -/
def RestTarget.Reaches (t : RestTarget) (account : String) : Prop :=
  let url := (t.balanceRequest account).url
  MockLedger.Rest.route (String.ofList (url.path.text ++ url.queryText)) = .balance account

/-- At the root of a service these are the accounts that a path can hold. -/
theorem RestTarget.AtRoot.reaches_iff (root : t.AtRoot) (account : String) :
    t.Reaches account ↔ account ≠ "" ∧ Url.Survives account.toList := by
  have url := RestTarget.balanceRequest_url root.path (fun _ => .inl rfl) account
  have path : (t.balanceRequest account).url.path.text =
      Url.segmentsText (Url.accountSegments (Url.isSpecial t.base.scheme) account.toList) := by
    rw [url]
    rfl
  have query : (t.balanceRequest account).url.queryText = [] ∨ (t.balanceRequest account).url.queryText = ['?'] := by
    rw [url]
    rcases root.query with h | h
    · exact .inl (by rw [Url.queryText, Url.withAccount, h])
    · exact .inr (by rw [Url.queryText, Url.withAccount, h])
  rw [RestTarget.Reaches]
  simp only [path]
  rw [MockLedger.Rest.route_eq_balance_iff (Url.plain_accountSegments _ _) query, Url.accountSegments_filled_iff, ne_eq, ne_eq,
    String.toList_eq_nil_iff]

namespace Rehearsal

theorem restBalance_eq (c : Config) (s : Surroundings) (h : t.Reaches account) : restBalance c s t account =
    if MockLedger.isMissing account then .error (.status 404 (MockLedger.Rest.balance s account).body) else .ok () := by
  unfold RestTarget.Reaches at h
  have response : restResponse c s 0 (t.balanceRequest account) =
      let a := MockLedger.Rest.balance s account
      { status := a.status, contentType := a.contentType, body := [a.body.toUTF8.toList] } := by
    rw [restResponse]
    simp only [h]
    rfl
  rw [restBalance, response, RestTarget.balanceResult_eq rfl, MockLedger.Rest.balance]
  cases MockLedger.isMissing account with
  | true =>
    simp only [if_true]
    rw [RestResponse.text_of_json]
    rfl
  | false => rfl

theorem grpcBalance_eq (s : Surroundings) (account : String) : grpcBalance s account =
    if MockLedger.isMissing account then .error (.grpc ⟨.notFound, MockLedger.notFoundText account⟩) else .ok () := by
  unfold grpcBalance MockLedger.Grpc.getBalance
  cases MockLedger.isMissing account <;> rfl

end Rehearsal

end Clients

/-! ### Workers -/

def Client.balance (c : MockLedger.Config) (s : MockLedger.Surroundings) :
    Client → String → Except TargetError Unit
  | .rest t, account => Rehearsal.restBalance c s t account
  | .grpc _, account => Rehearsal.grpcBalance s account

def Client.Reaches : Client → String → Prop
  | .rest t, account => t.Reaches account
  | .grpc _, _ => True

namespace Rehearsal

open MockLedger (Config Surroundings)
open Load Load.World

variable {client client' : Client} {accounts accounts' : List String} {as as' : List Action} {w w' : World} {i j : Nat}

theorem isOk_balance (c : Config) (s s' : Surroundings) {account : String} (h : client.Reaches account) :
    (client.balance c s account).isOk = (MockLedger.Grpc.getBalance s' account).isOk := by
  rw [MockLedger.isOk_getBalance]
  cases client with
  | rest t =>
    rw [Client.balance, restBalance_eq c s h]
    cases MockLedger.isMissing account <;> rfl
  | grpc g =>
    rw [Client.balance, grpcBalance_eq]
    cases MockLedger.isMissing account <;> rfl

/-- A worker of a run of balance queries. What is answered to it comes from the mock ledger behind its client. -/
structure Served (client : Client) (accounts : List String) (as : List Action) (w : World) (i : Nat) : Prop where
  run : (initial accounts).run as = some w
  admitted : ∃ k r, Claims accounts as k ∧ w.runs[k]? = some r ∧ r.config.scenario = .balance
  staffed : ∃ x, w.workers[i]? = some x
  replies : ∀ call ∈ callsOf i w, ∀ reply at_, call.ending = .replied reply at_ →
    client.Reaches call.account ∧ ∃ c s, reply = client.balance c s call.account

theorem Served.successes (h : Served client accounts as w i) (s : Surroundings) :
    (yields i (initial accounts) as).map (·.success) =
      (answered i w).map fun account => (MockLedger.Grpc.getBalance s account).isOk := by
  obtain ⟨k, r, hk, hr, hb⟩ := h.admitted
  obtain ⟨x, hx⟩ := h.staffed
  apply successes_of_run h.run (claimedBy_of_claims h.run hk hr) hb hx
  intro call hcall reply at_ ending
  obtain ⟨reaches, c, s', rfl⟩ := h.replies call hcall reply at_ ending
  exact isOk_balance c s' s reaches

/-- The three paths to a balance agree, and so do the two clients.

Of an account the REST handler says that it is not found exactly if the gRPC handler does, and in the same words; otherwise
both give a balance of it. A batch brings those accounts, in order and as often as they are asked for, of which a query
alone would bring a balance. Wherever an account gets to the REST handler as it is, the clients both succeed or both fail; at
the root of a service this is every account that a path can hold. So the calls of a worker succeed or fail by their accounts,
whatever the transport. -/
theorem balances_agree (c : Config) (s s' : Surroundings) :
    (∀ account : String,
      ((MockLedger.Rest.balance s account).status = 404 ↔
        ∃ e, MockLedger.Grpc.getBalance s' account = .error e ∧ e.code = .notFound) ∧
      (∀ e, MockLedger.Grpc.getBalance s' account = .error e →
        (MockLedger.Rest.balance s account).status = 404 ∧ e = ⟨.notFound, "account " ++ account ++ " not found"⟩ ∧
        Json.read MockLedger.refusalCodec.read (MockLedger.Rest.balance s account).body = .ok e.message) ∧
      (∀ b, MockLedger.Grpc.getBalance s' account = .ok b →
        (MockLedger.Rest.balance s account).status = 200 ∧ b.account = account ∧
        ∃ b', Json.read MockLedger.Balance.codec.read (MockLedger.Rest.balance s account).body = .ok b' ∧
          b'.account = account)) ∧
    (∀ accounts : List String, (MockLedger.Grpc.getBalances s accounts).map (·.account) =
      accounts.filter fun account => (MockLedger.Grpc.getBalance s' account).isOk) ∧
    (∀ (t : RestTarget) (account : String), t.Reaches account →
      (restBalance c s t account = .ok () ∧ grpcBalance s' account = .ok ()) ∨
      (restBalance c s t account = .error (.status 404 (MockLedger.Rest.balance s account).body) ∧
        grpcBalance s' account = .error (.grpc ⟨.notFound, "account " ++ account ++ " not found"⟩))) ∧
    (∀ (t : RestTarget) (account : String), t.AtRoot →
      (t.Reaches account ↔ account ≠ "" ∧ Url.Survives account.toList)) ∧
    (∀ {client : Client} {accounts : List String} {as : List Action} {w : World} {i : Nat},
      Served client accounts as w i → (yields i (initial accounts) as).map (·.success) =
        (answered i w).map fun account => (MockLedger.Grpc.getBalance s account).isOk) ∧
    (∀ {client client' : Client} {accounts accounts' : List String} {as as' : List Action} {w w' : World} {i j : Nat},
      Served client accounts as w i → Served client' accounts' as' w' j → answered i w = answered j w' →
      (yields i (initial accounts) as).map (·.success) = (yields j (initial accounts') as').map (·.success)) := by
  refine ⟨fun account => ?_, MockLedger.account_getBalances s s', fun t account reaches => ?_,
    fun t account root => root.reaches_iff account, fun served => served.successes s, fun served served' same => ?_⟩
  · exact MockLedger.handlers_agree s s' account
  · rw [restBalance_eq c s reaches, grpcBalance_eq]
    cases MockLedger.isMissing account with
    | true => exact .inr ⟨rfl, rfl⟩
    | false => exact .inl ⟨rfl, rfl⟩
  · rw [served.successes s, served'.successes s, same]

def inquiry (refusal : TargetError) : List Action :=
  let config : WorkloadConfig := { scenario := .balance, concurrency := 1, duration := Span.ofSecs 1 }
  .run config false :: List.replicate 5 (.advanceRun 0 false) ++
    [.work 0, .work 0, .call 0 0, .pass 1000000, .answer 0 (.ok ()), .work 0, .work 0, .work 0, .call 0 1,
      .pass 1000000, .answer 0 (.error refusal), .work 0]

theorem served_inquiry (client : Client) {refusal : TargetError}
    (reaches : client.Reaches "0.0.1" ∧ client.Reaches "missing-7")
    (known : client.balance {} surroundings "0.0.1" = .ok ())
    (missing : client.balance {} surroundings "missing-7" = .error refusal) :
    ∃ w, Served client ["0.0.1", "missing-7"] (inquiry refusal) w 0 ∧ answered 0 w = ["0.0.1", "missing-7"] := by
  have ran : ((initial ["0.0.1", "missing-7"]).run (inquiry refusal)).map (fun w =>
      (w.state, w.runs.size, (w.runs[0]?).map fun r => r.config.scenario, w.workers.size, callsOf 0 w)) =
        some (.running, 1, some .balance, 1,
          [{ worker := 0, account := "0.0.1", start := 0, ending := .replied (.ok ()) 1000000 },
            { worker := 0, account := "missing-7", start := 1000000, ending := .replied (.error refusal) 2000000 }]) := rfl
  obtain ⟨w, h, facts⟩ := Option.map_eq_some_iff.1 ran
  simp only [Prod.mk.injEq, Option.map_eq_some_iff] at facts
  obtain ⟨state, alone, ⟨r, hr, hb⟩, staffed, calls⟩ := facts
  refine ⟨w, ⟨h, ⟨0, r, claims_of_alone h (by rw [state]; decide) alone, hr, hb⟩, ?_, ?_⟩, ?_⟩
  · exact ⟨w.workers[0], Array.getElem?_eq_getElem (by omega)⟩
  · rw [calls]
    intro call hcall reply at_ ending
    rcases List.mem_cons.1 hcall with rfl | hcall
    · cases ending
      exact ⟨reaches.1, _, _, known.symm⟩
    · obtain rfl := List.mem_singleton.1 hcall
      cases ending
      exact ⟨reaches.2, _, _, missing.symm⟩
  · rw [answered, calls]
    rfl

theorem balances_of_inquiries : ∃ t g refusal refusal' w w', RestTarget.ofText "http://127.0.0.1:8080" = .ok t ∧
    (MockLedger.Rest.balance surroundings "0.0.1").status = 200 ∧
    (MockLedger.Rest.balance surroundings "missing-7").status = 404 ∧
    (MockLedger.Grpc.getBalances surroundings ["0.0.1", "missing-7", "0.0.1"]).map (·.account) = ["0.0.1", "0.0.1"] ∧
    restBalance {} surroundings t "missing-7" = .error refusal ∧ grpcBalance surroundings "missing-7" = .error refusal' ∧
    Served (.rest t) ["0.0.1", "missing-7"] (inquiry refusal) w 0 ∧
    Served (.grpc g) ["0.0.1", "missing-7"] (inquiry refusal') w' 0 ∧
    (yields 0 (initial ["0.0.1", "missing-7"]) (inquiry refusal)).map (·.success) = [true, false] ∧
    (yields 0 (initial ["0.0.1", "missing-7"]) (inquiry refusal)).map (·.success) =
      (yields 0 (initial ["0.0.1", "missing-7"]) (inquiry refusal')).map (·.success) := by
  let t : RestTarget :=
    ⟨{ scheme := "http", host := some (.ipv4 2130706433), port := some 8080, path := .segments [[]] }⟩
  have root : t.AtRoot := ⟨.inl rfl, rfl, .inl rfl⟩
  have made : RestTarget.ofText "http://127.0.0.1:8080" = .ok t := by decide +kernel
  obtain ⟨handlers, batch, clients, reach, records, agree⟩ := balances_agree {} surroundings surroundings
  have plain : Url.Survives "0.0.1".toList ∧ Url.Survives "missing-7".toList := by
    unfold Url.Survives
    decide +kernel
  have first : t.Reaches "0.0.1" := (reach t "0.0.1" root).2 ⟨by decide, plain.1⟩
  have second : t.Reaches "missing-7" := (reach t "missing-7" root).2 ⟨by decide, plain.2⟩
  have known : restBalance {} surroundings t "0.0.1" = .ok () ∧ grpcBalance surroundings "0.0.1" = .ok () := by
    apply (clients t "0.0.1" first).resolve_right
    rintro ⟨_, refused⟩
    cases refused
  obtain ⟨missing, missing'⟩ := (clients t "missing-7" second).resolve_left fun given => nomatch given.2
  obtain ⟨w, served, asked⟩ := served_inquiry (.rest t) ⟨first, second⟩ known.1 missing
  obtain ⟨w', served', asked'⟩ := served_inquiry (.grpc ⟨"http://127.0.0.1:8081"⟩) ⟨trivial, trivial⟩ known.2 missing'
  have told := records served
  rw [asked] at told
  exact ⟨t, _, _, _, w, w', made, ((handlers "0.0.1").2.2 _ rfl).1, ((handlers "missing-7").2.1 _ rfl).1,
    batch ["0.0.1", "missing-7", "0.0.1"], missing, missing', served, served', told,
    agree served served' (asked.trans asked'.symm)⟩

end Rehearsal

end LedgerLoad
