import Mathlib.Data.List.Forall2
import LedgerLoad.Proofs.TextParts
import LedgerLoad.Proofs.Transactions

/-!
The rows that storing a report inserts.

A statement of insertion is read as the server reads it: the names of the columns stand in the first brackets of its text,
every later pair of brackets is a row, and a placeholder stands for the parameter of its number. Read so, the statements
for the samples of a report insert these samples, one row each and in their order.
-/

set_option autoImplicit false

namespace LedgerLoad

namespace Sql

def placeholdersIn (text : List Char) : List Nat :=
  (Text.splitOn (· == '$') text).tail.map fun field => Text.digitsValue (field.takeWhile Text.isDigit)

def columnsIn (text : List Char) : List String :=
  (Text.splitOn (· == ',') ((text.dropWhile (· != '(')).tail.takeWhile (· != ')'))).map fun name =>
    String.ofList (name.dropWhile (· == ' '))

def groupsIn (text : List Char) : List (List Nat) :=
  ((Text.splitOn (· == ')') text).map placeholdersIn).filter (!·.isEmpty)

def Statement.bound (s : Statement) : Nat → Option Param
  | 0 => none
  | n + 1 => s.params[n]?

def Statement.rows (s : Statement) : List (List (String × Option Param)) :=
  (groupsIn s.text.toList).map fun group => (columnsIn s.text.toList).zip (group.map s.bound)

def sampleRow (run : Int) (s : Sample) : List (String × Option Param) :=
  [("run_id", some (.int8 run)), ("latency_ms", some (.float8 s.latencyMillis)), ("success", some (.bool s.success)),
    ("error_type", some (ofOption .text s.error)), ("timestamp", some (.timestamptz (microsOf s.timestamp)))]

/-- A statement inserts these samples: their groups of placeholders are numbered through, and five parameters belong to
each. -/
structure Inserts (run : Int) (samples : List Sample) (s : Statement) : Prop where
  text : s.text = "INSERT INTO benchmark_samples (run_id, latency_ms, success, error_type, timestamp) VALUES " ++
    ", ".intercalate ((List.range samples.length).map fun i =>
      "($" ++ toString (5 * i + 1) ++ ", $" ++ toString (5 * i + 2) ++ ", $" ++ toString (5 * i + 3) ++
        ", $" ++ toString (5 * i + 4) ++ ", $" ++ toString (5 * i + 5) ++ ")")
  groups : groupsIn s.text.toList =
    (List.range samples.length).map fun i => [5 * i + 1, 5 * i + 2, 5 * i + 3, 5 * i + 4, 5 * i + 5]
  params : s.params.length = 5 * samples.length
  bound : ∀ i sample, samples[i]? = some sample →
    s.bound (5 * i + 1) = some (.int8 run) ∧ s.bound (5 * i + 2) = some (.float8 sample.latencyMillis) ∧
    s.bound (5 * i + 3) = some (.bool sample.success) ∧ s.bound (5 * i + 4) = some (ofOption .text sample.error) ∧
    s.bound (5 * i + 5) = some (.timestamptz (microsOf sample.timestamp))

/-- Statements store the samples of a run: as few as there can be with at most 1000 rows in each. -/
structure StoresSamples (run : Int) (samples : List Sample) (inserts : List Statement) : Prop where
  rows : inserts.flatMap Statement.rows = samples.map (sampleRow run)
  count : inserts.length = (samples.length + 999) / 1000
  sizes : ∀ s ∈ inserts, 1 ≤ s.rows.length ∧ s.rows.length ≤ 1000 ∧ s.params.length ≤ 5000
  pieces : ∃ pieces : List (List Sample), pieces.flatten = samples ∧ List.Forall₂ (Inserts run) pieces inserts

section

variable {α : Type} {run : Int} {samples : List Sample} {pre post head : List Char}

/-! ### Pieces -/

theorem chunks_flatten (n : Nat) (as : List α) : (chunks n as).flatten = as := by
  induction as using chunks.induct n with
  | case1 => simp [chunks]
  | case2 a as ih => rw [chunks, List.flatten_cons, ih, List.cons_append, List.take_append_drop]

theorem chunks_length (n : Nat) (as : List α) : (chunks n as).length = (as.length + n) / (n + 1) := by
  induction as using chunks.induct n with
  | case1 => simp [chunks, Nat.div_eq_of_lt]
  | case2 a as ih =>
    rw [chunks, List.length_cons, ih, List.length_drop, List.length_cons]
    obtain short | long := Nat.lt_or_ge as.length n
    · have one : as.length + 1 + n = as.length + (n + 1) := by omega
      rw [Nat.sub_eq_zero_of_le (by omega), Nat.zero_add, Nat.div_eq_of_lt (by omega), one,
        Nat.add_div_right _ (Nat.succ_pos n), Nat.div_eq_of_lt (by omega)]
    · have more : as.length + 1 + n = as.length - n + n + (n + 1) := by omega
      rw [more, Nat.add_div_right _ (Nat.succ_pos n)]

theorem length_of_mem_chunks {n : Nat} {as piece : List α} (h : piece ∈ chunks n as) :
    1 ≤ piece.length ∧ piece.length ≤ n + 1 := by
  induction as using chunks.induct n with
  | case1 => simp [chunks] at h
  | case2 a as ih =>
    rw [chunks, List.mem_cons] at h
    obtain rfl | later := h
    · simp only [List.length_cons, List.length_take]
      omega
    · exact ih later

/-! ### Texts -/

def numbered (ns : List Nat) : List Char := ", ".toList.intercalate (ns.map fun n => '$' :: Text.decimal n)

def group (ns : List Nat) : List Char := '(' :: (numbered ns ++ [')'])

def plain (c : Char) : Bool := c != '$' && c != ')'

theorem numbered_singleton (n : Nat) : numbered [n] = '$' :: Text.decimal n := List.intercalate_singleton

theorem numbered_cons_cons (n m : Nat) (ns : List Nat) :
    numbered (n :: m :: ns) = '$' :: (Text.decimal n ++ ", ".toList ++ numbered (m :: ns)) := by
  rw [numbered, List.map_cons, List.map_cons, List.intercalate_cons_cons]
  rfl

theorem toList_placeholders (i : Nat) :
    (placeholders i).toList = group [5 * i + 1, 5 * i + 2, 5 * i + 3, 5 * i + 4, 5 * i + 5] := by
  have five : List.range 5 = [0, 1, 2, 3, 4] := rfl
  simp [placeholders, group, numbered, five, Text.decimal]

theorem ne_of_plain {c : Char} (h : plain c = true) : (c == '$') = false ∧ (c == ')') = false := by
  simpa [plain, Bool.and_eq_true, bne_iff_ne] using h

theorem plain_of_mem_decimal {n : Nat} {c : Char} (hc : c ∈ Text.decimal n) : plain c = true := by
  have digit := Text.isDigit_iff.1 (Text.isDigit_of_mem_decimal hc)
  have other (d : Char) (h : d.toNat < 48) : c ≠ d := by
    rintro rfl
    omega
  simp [plain, other '$' (by decide), other ')' (by decide)]

theorem plain_of_mem_comma : ∀ c ∈ ", ".toList, plain c = true := List.all_eq_true.1 (by decide)

theorem placeholdersIn_of_plain (hpre : ∀ c ∈ pre, plain c = true) : placeholdersIn pre = [] := by
  rw [placeholdersIn, Text.splitOn_of_none fun c hc => (ne_of_plain (hpre c hc)).1]
  rfl

theorem placeholdersIn_append_cons (hpre : ∀ c ∈ pre, plain c = true) (text : List Char) :
    placeholdersIn (pre ++ '$' :: text) = Text.digitsValue (text.takeWhile Text.isDigit) :: placeholdersIn text := by
  have first := Text.head?_splitOn (· == '$') text
  have within : (text.takeWhile (!· == '$')).takeWhile Text.isDigit = text.takeWhile Text.isDigit := by
    rw [List.takeWhile_takeWhile]
    congr 1
    funext c
    by_cases sign : c = '$'
    · simp [sign]
      rfl
    · simp [sign]
  rw [placeholdersIn, Text.splitOn_append_cons (fun c hc => (ne_of_plain (hpre c hc)).1) rfl, List.tail_cons,
    placeholdersIn]
  cases fields : Text.splitOn (· == '$') text with
  | nil => exact absurd fields (Text.splitOn_ne_nil _ _)
  | cons field more =>
    rw [fields, List.head?_cons, Option.some_inj] at first
    rw [List.map_cons, List.tail_cons, first, within]

-- What stands before a placeholder is in the induction because the digits and the comma of the last one go there.
theorem placeholdersIn_numbered (hpre : ∀ c ∈ pre, plain c = true) (ns : List Nat) :
    placeholdersIn (pre ++ numbered ns) = ns := by
  induction ns generalizing pre with
  | nil => simpa [numbered] using placeholdersIn_of_plain hpre
  | cons n ns ih =>
    cases ns with
    | nil =>
      have alone := Text.takeWhile_decimal (t := []) n (by simp)
      rw [List.append_nil] at alone
      rw [numbered_singleton, placeholdersIn_append_cons hpre, alone, Text.digitsValue_decimal,
        placeholdersIn_of_plain fun c hc => plain_of_mem_decimal hc]
    | cons m ns =>
      have between : ∀ c ∈ Text.decimal n ++ ", ".toList, plain c = true := fun c hc =>
        (List.mem_append.1 hc).elim plain_of_mem_decimal (plain_of_mem_comma c)
      have digits : (Text.decimal n ++ ", ".toList ++ numbered (m :: ns)).takeWhile Text.isDigit = Text.decimal n := by
        rw [List.append_assoc]
        exact Text.takeWhile_decimal n (by simp; decide)
      rw [numbered_cons_cons, placeholdersIn_append_cons hpre, digits, Text.digitsValue_decimal, ih between]

theorem numbered_closed {ns : List Nat} {c : Char} (hc : c ∈ numbered ns) : (c == ')') = false := by
  induction ns with
  | nil => cases hc
  | cons n ns ih =>
    cases ns with
    | nil =>
      rw [numbered_singleton] at hc
      obtain rfl | digit := List.mem_cons.1 hc
      · rfl
      · exact (ne_of_plain (plain_of_mem_decimal digit)).2
    | cons m ns =>
      rw [numbered_cons_cons] at hc
      obtain rfl | (digit | comma) | later := by simpa only [List.mem_cons, List.mem_append] using hc
      · rfl
      · exact (ne_of_plain (plain_of_mem_decimal digit)).2
      · exact (ne_of_plain (plain_of_mem_comma c comma)).2
      · exact ih later

theorem groupsIn_append_cons (hpre : ∀ c ∈ pre, (c == ')') = false) (text : List Char) :
    groupsIn (pre ++ ')' :: text) = [placeholdersIn pre].filter (!·.isEmpty) ++ groupsIn text := by
  rw [groupsIn, Text.splitOn_append_cons hpre rfl, List.map_cons, ← List.singleton_append, List.filter_append]
  rfl

theorem groupsIn_of_plain (hpre : ∀ c ∈ pre, plain c = true) : groupsIn pre = [] := by
  rw [groupsIn, Text.splitOn_of_none fun c hc => (ne_of_plain (hpre c hc)).2, List.map_singleton,
    placeholdersIn_of_plain hpre]
  rfl

theorem groupsIn_group (hpre : ∀ c ∈ pre, plain c = true) {ns : List Nat} (hns : ns ≠ []) (text : List Char) :
    groupsIn (pre ++ (group ns ++ text)) = ns :: groupsIn text := by
  have opened : ∀ c ∈ pre ++ ['('], plain c = true := by
    intro c hc
    obtain before | opening := List.mem_append.1 hc
    · exact hpre c before
    · rw [List.mem_singleton.1 opening]
      rfl
  have within : ∀ c ∈ pre ++ ['('] ++ numbered ns, (c == ')') = false := fun c hc =>
    (List.mem_append.1 hc).elim (fun before => (ne_of_plain (opened c before)).2) numbered_closed
  have whole : pre ++ (group ns ++ text) = (pre ++ ['('] ++ numbered ns) ++ ')' :: text := by simp [group]
  rw [whole, groupsIn_append_cons within, placeholdersIn_numbered opened]
  simp [hns]

theorem groupsIn_values (hpre : ∀ c ∈ pre, plain c = true) (gs : List (List Nat)) (hgs : ∀ ns ∈ gs, ns ≠ []) :
    groupsIn (pre ++ ", ".toList.intercalate (gs.map group)) = gs := by
  induction gs generalizing pre with
  | nil => simpa using groupsIn_of_plain hpre
  | cons ns gs ih =>
    have first := groupsIn_group hpre (hgs ns List.mem_cons_self)
    cases gs with
    | nil => simpa [groupsIn_of_plain] using first []
    | cons ms gs =>
      have next := ih plain_of_mem_comma fun ns h => hgs ns (List.mem_cons_of_mem _ h)
      rw [List.map_cons] at next
      rw [List.map_cons, List.map_cons, List.intercalate_cons_cons, List.append_assoc, first, next]

-- A literal goes in as the list of its characters, or the proofs about it would unfold it.

theorem columnsIn_append {start : String} (hs : start = String.ofList head)
    (h : ')' ∈ (head.dropWhile (· != '(')).tail) (more : String) :
    columnsIn (start ++ more).toList = columnsIn head := by
  have opens : head.dropWhile (· != '(') ≠ [] := by
    intro none
    rw [none] at h
    cases h
  have closes : ((head.dropWhile (· != '(')).tail.takeWhile (· != ')')).length ≠
      (head.dropWhile (· != '(')).tail.length := by
    intro all
    have := List.takeWhile_eq_self_iff.1 ((List.takeWhile_prefix _).eq_of_length all) _ h
    simp at this
  rw [hs, String.toList_append, String.toList_ofList, columnsIn, List.dropWhile_append, if_neg (by simpa using opens),
    List.tail_append_of_ne_nil opens, List.takeWhile_append, if_neg closes]
  rfl

theorem groupsIn_append {start : String} (hs : start = String.ofList head)
    (brackets : head.takeWhile plain ++ ')' :: (head.dropWhile plain).tail = head)
    (after : ∀ c ∈ (head.dropWhile plain).tail, plain c = true) {rows : List String} {gs : List (List Nat)}
    (hrows : rows.map String.toList = gs.map group) (hgs : ∀ ns ∈ gs, ns ≠ []) :
    groupsIn (start ++ ", ".intercalate rows).toList = gs := by
  have before : ∀ c ∈ head.takeWhile plain, plain c = true := fun c hc => List.mem_takeWhile_imp hc
  rw [String.toList_append, String.toList_intercalate, hs, String.toList_ofList, ← brackets, List.append_assoc,
    List.cons_append, groupsIn_append_cons fun c hc => (ne_of_plain (before c hc)).2, placeholdersIn_of_plain before,
    hrows, groupsIn_values after gs hgs]
  rfl

/-! ### Statements -/

theorem columnsIn_sampleInsert : columnsIn (sampleInsert run samples).text.toList =
    ["run_id", "latency_ms", "success", "error_type", "timestamp"] :=
  (columnsIn_append rfl (by decide) _).trans (by decide)

theorem groupsIn_sampleInsert : groupsIn (sampleInsert run samples).text.toList =
    (List.range samples.length).map fun i => [5 * i + 1, 5 * i + 2, 5 * i + 3, 5 * i + 4, 5 * i + 5] := by
  refine groupsIn_append rfl (by decide) (List.all_eq_true.1 (by decide)) ?_ (by simp)
  rw [List.map_map, List.map_map]
  exact List.map_congr_left fun i _ => toList_placeholders i

@[simp] theorem length_sampleParams (run : Int) (s : Sample) : (sampleParams run s).length = 5 := rfl

theorem length_params (run : Int) (samples : List Sample) :
    (samples.flatMap (sampleParams run)).length = 5 * samples.length := by
  induction samples with
  | nil => rfl
  | cons s samples ih =>
    simp only [List.flatMap_cons, List.length_append, length_sampleParams, List.length_cons, ih]
    omega

theorem getElem?_params (run : Int) {i j : Nat} {s : Sample} (hs : samples[i]? = some s) (hj : j < 5) :
    (samples.flatMap (sampleParams run))[5 * i + j]? = (sampleParams run s)[j]? := by
  induction samples generalizing i with
  | nil => simp at hs
  | cons first samples ih =>
    rw [List.flatMap_cons]
    cases i with
    | zero =>
      cases hs
      rw [Nat.mul_zero, Nat.zero_add, List.getElem?_append_left hj]
    | succ i =>
      have place : 5 * (i + 1) + j - (sampleParams run first).length = 5 * i + j := by
        rw [length_sampleParams]
        omega
      rw [List.getElem?_append_right (by rw [length_sampleParams]; omega), place]
      exact ih (by simpa using hs)

theorem placeholders_eq (i : Nat) : placeholders i = "($" ++ toString (5 * i + 1) ++ ", $" ++ toString (5 * i + 2) ++
    ", $" ++ toString (5 * i + 3) ++ ", $" ++ toString (5 * i + 4) ++ ", $" ++ toString (5 * i + 5) ++ ")" := by
  rw [← String.toList_inj, toList_placeholders]
  simp [group, numbered, Text.decimal]

theorem inserts_sampleInsert (run : Int) (samples : List Sample) :
    Inserts run samples (sampleInsert run samples) where
  text := congrArg (fun rows => _ ++ ", ".intercalate rows) (List.map_congr_left fun i _ => placeholders_eq i)
  groups := groupsIn_sampleInsert
  params := length_params run samples
  bound i s hs :=
    ⟨getElem?_params run hs (j := 0) (by decide), getElem?_params run hs (j := 1) (by decide),
      getElem?_params run hs (j := 2) (by decide), getElem?_params run hs (j := 3) (by decide),
      getElem?_params run hs (j := 4) (by decide)⟩

theorem rows_sampleInsert : (sampleInsert run samples).rows = samples.map (sampleRow run) := by
  rw [Statement.rows, columnsIn_sampleInsert, groupsIn_sampleInsert, List.map_map]
  refine List.ext_getElem? fun i => ?_
  rw [List.getElem?_map, List.getElem?_map]
  cases hs : samples[i]? with
  | none =>
    have beyond := List.getElem?_eq_none_iff.1 hs
    simpa using beyond
  | some s =>
    obtain ⟨within, _⟩ := List.getElem?_eq_some_iff.1 hs
    obtain ⟨runId, latency, success, error, timestamp⟩ := (inserts_sampleInsert run samples).bound i s hs
    simp [List.getElem?_range within, sampleRow, runId, latency, success, error, timestamp]

theorem storesSamples (run : Int) (samples : List Sample) :
    StoresSamples run samples (sampleInserts run samples) where
  rows := by
    rw [sampleInserts, List.flatMap_map]
    simp only [rows_sampleInsert]
    rw [List.flatMap_def, ← List.map_flatten, chunks_flatten]
  count := by simp only [sampleInserts, List.length_map, chunks_length, samplesPerInsert, Nat.reduceSub, Nat.reduceAdd]
  sizes := by
    intro s hs
    obtain ⟨piece, hpiece, rfl⟩ := List.mem_map.1 hs
    obtain ⟨least, most⟩ := length_of_mem_chunks hpiece
    have params := (inserts_sampleInsert run piece).params
    rw [rows_sampleInsert, List.length_map, params]
    simp only [samplesPerInsert] at most
    omega
  pieces := ⟨chunks (samplesPerInsert - 1) samples, chunks_flatten _ samples,
    List.forall₂_map_right_iff.2 (List.forall₂_same.2 fun piece _ => inserts_sampleInsert run piece)⟩

end

end Sql

namespace Database

open Sql (Statement)

def transaction (r : RunReport) (run : Int) : List Statement :=
  Sql.begin :: Sql.runInsert r.metadata :: Sql.sampleInserts run r.samples ++ [Sql.commit]

def Gives (server : DbServer) (occasion : Nat) (m : RunMetadata) (run : Int) : Prop :=
  ∃ rows, server.respond occasion (Sql.runInsert m) = .ok rows ∧ runIdOf rows = .ok run

section

variable {server : DbServer} {pool occasion : Nat} {r : RunReport} {run : Int} {qs : List Request} {sent : List DbEvent}
  {failure : Option String} {why : String}

theorem map_statement_transaction :
    (begin :: storage r run ++ [commit]).map Request.statement = transaction r run := by
  simp [storage, transaction, begin, commit, runInsertion, Function.comp_def]

theorem Sends.connection (h : Sends server pool occasion qs sent failure) :
    ∀ e ∈ sent, ∃ s accepted, e = .sent pool s accepted := by
  induction h with
  | nil => simp
  | next _ _ ih =>
    intro e he
    obtain rfl | later := List.mem_cons.1 he
    · exact ⟨_, _, rfl⟩
    · exact ih e later
  | broken _ =>
    intro e he
    exact ⟨_, _, List.mem_singleton.1 he⟩

theorem statements_of_success (h : Sends server pool occasion qs sent none) :
    sent.filterMap DbEvent.statement? = qs.map Request.statement := by
  rw [h.eq_of_success, List.filterMap_map]
  exact congrFun List.filterMap_eq_map qs

end

end Database

end LedgerLoad
