import LedgerLoad.Report
import LedgerLoad.Proofs.TextParts

/-!
Printed texts as they are read: line by line, by the labels that the lines begin with.

The numbers in a summary are digits, signs, points and words, so no number breaks a line. Of the lines of a summary one
tells the number of requests and one the number of errors.
-/

set_option autoImplicit false

namespace LedgerLoad

namespace Text

/-- The numbers after a label, one for each line of a text that begins with it. -/
def numbersAfter (label text : List Char) : List Nat :=
  ((splitOn (· == '\n') text).filter label.isPrefixOf).map fun line =>
    digitsValue ((line.drop label.length).takeWhile isDigit)

def printed (lines : List (List Char)) : List Char := lines.flatMap (· ++ ['\n'])

variable {lines : List (List Char)} {label : List Char}

theorem splitOn_printed (whole : ∀ line ∈ lines, '\n' ∉ line) :
    splitOn (· == '\n') (printed lines) = lines ++ [[]] := by
  induction lines with
  | nil => rfl
  | cons line lines ih =>
    have first : ∀ c ∈ line, (c == '\n') = false := by
      intro c hc
      have other : c ≠ '\n' := by
        rintro rfl
        exact whole line List.mem_cons_self hc
      simpa using other
    have ended : printed (line :: lines) = line ++ '\n' :: printed lines := by
      simp [printed]
    rw [ended, splitOn_append_cons first (by decide), ih fun l hl => whole l (List.mem_cons_of_mem _ hl),
      List.cons_append]

theorem isPrefixOf_empty (named : label ≠ []) : label.isPrefixOf [] = false := by
  cases label with
  | nil => exact absurd rfl named
  | cons c label => rfl

theorem numbersAfter_printed (whole : ∀ line ∈ lines, '\n' ∉ line) (named : label ≠ []) :
    numbersAfter label (printed lines) = (lines.filter label.isPrefixOf).map fun line =>
      digitsValue ((line.drop label.length).takeWhile isDigit) := by
  rw [numbersAfter, splitOn_printed whole, List.filter_append,
    List.filter_cons_of_neg (ne_true_of_eq_false (isPrefixOf_empty named)), List.filter_nil, List.append_nil]

def differ (s t : List Char) : Bool := (s.zip t).any fun p => p.1 != p.2

theorem differ_append {s : List Char} (h : differ label s = true) (t : List Char) : differ label (s ++ t) = true := by
  induction label generalizing s with
  | nil => simp [differ] at h
  | cons c label ih =>
    cases s with
    | nil => simp [differ] at h
    | cons d s =>
      simp only [differ, List.zip_cons_cons, List.any_cons, Bool.or_eq_true] at h
      simp only [differ, List.cons_append, List.zip_cons_cons, List.any_cons, Bool.or_eq_true]
      exact h.imp_right ih

theorem isPrefixOf_of_differ {s : List Char} (h : differ label s = true) : label.isPrefixOf s = false := by
  induction label generalizing s with
  | nil => simp [differ] at h
  | cons c label ih =>
    cases s with
    | nil => simp [differ] at h
    | cons d s =>
      simp only [differ, List.zip_cons_cons, List.any_cons, Bool.or_eq_true, bne_iff_ne] at h
      rw [List.isPrefixOf]
      obtain other | later := h
      · simp [other]
      · rw [ih later, Bool.and_false]

/-! ### Texts that break no line -/

def Unbroken (s : String) : Prop := '\n' ∉ s.toList

instance : DecidablePred Unbroken := fun s => inferInstanceAs (Decidable ('\n' ∉ s.toList))

theorem Unbroken.append {s t : String} (hs : Unbroken s) (ht : Unbroken t) : Unbroken (s ++ t) := by
  rw [Unbroken, String.toList_append, List.mem_append]
  exact fun h => h.elim hs ht

theorem ne_newline_of_isDigit {c : Char} (h : isDigit c = true) : c ≠ '\n' := by
  rintro rfl
  cases h

theorem unbroken_nat (n : Nat) : Unbroken (toString n) := by
  intro broken
  rw [toList_toString] at broken
  exact ne_newline_of_isDigit (isDigit_of_mem_decimal broken) rfl

theorem unbroken_int (n : Int) : Unbroken (toString n) := by
  cases n with
  | ofNat n => exact unbroken_nat n
  | negSucc n => exact Unbroken.append (s := "-") (by decide +kernel) (unbroken_nat (n + 1))

theorem not_mem_intercalate {c : Char} {sep : List Char} {parts : List (List Char)} (hs : c ∉ sep)
    (hp : ∀ part ∈ parts, c ∉ part) : c ∉ sep.intercalate parts := by
  induction parts with
  | nil => simp
  | cons part parts ih =>
    have later := ih fun p hmem => hp p (List.mem_cons_of_mem _ hmem)
    cases parts with
    | nil => simpa using hp part List.mem_cons_self
    | cons next parts =>
      rw [List.intercalate_cons_cons, List.mem_append, List.mem_append]
      rintro ((first | between) | rest)
      · exact hp part List.mem_cons_self first
      · exact hs between
      · exact later rest

theorem unbroken_intercalate {sep : String} {parts : List String} (hs : Unbroken sep) (hp : ∀ s ∈ parts, Unbroken s) :
    Unbroken (sep.intercalate parts) := by
  rw [Unbroken, String.toList_intercalate]
  refine not_mem_intercalate hs fun part hpart => ?_
  obtain ⟨s, hmem, rfl⟩ := List.mem_map.1 hpart
  exact hp s hmem

end Text

open Text

theorem Decimal.unbroken_fixed (digits : Nat) (x : Float) : Unbroken (Decimal.fixed digits x) := by
  have number : ∀ num den : Nat, '\n' ∉ Decimal.places digits num den := by
    intro num den broken
    simp only [Decimal.places] at broken
    split at broken
    · exact ne_newline_of_isDigit (isDigit_of_mem_decimal broken) rfl
    · obtain whole | point | fraction := by simpa only [List.mem_append, List.mem_cons] using broken
      · exact ne_newline_of_isDigit (isDigit_of_mem_decimal whole) rfl
      · cases point
      · exact ne_newline_of_isDigit (isDigit_of_mem_padded fraction) rfl
  unfold Decimal.fixed
  split
  · decide +kernel
  · split <;> decide +kernel
  · rename_i negative m e
    rw [Unbroken, String.toList_ofList]
    split
    · simpa using number _ _
    · exact number _ _

theorem Span.unbroken_human (s : Span) : Unbroken s.human := by
  have part : ∀ (n : Nat) (unit : String) (plural : Bool), Unbroken unit →
      ∀ text ∈ Span.humanPart n unit plural, Unbroken text := by
    intro n unit plural hu text ht
    unfold Span.humanPart at ht
    split at ht
    · cases ht
    · obtain rfl := List.mem_singleton.1 ht
      refine ((unbroken_nat n).append hu).append ?_
      split <;> decide +kernel
  simp only [Span.human]
  split
  · decide +kernel
  · refine unbroken_intercalate (by decide +kernel) fun text ht => ?_
    simp only [List.mem_append] at ht
    obtain ((((years | months) | days) | hours) | minutes) | seconds := ht
    · exact part _ _ _ (by decide +kernel) text years
    · exact part _ _ _ (by decide +kernel) text months
    · exact part _ _ _ (by decide +kernel) text days
    · exact part _ _ _ (by decide +kernel) text hours
    · exact part _ _ _ (by decide +kernel) text minutes
    · exact part _ _ _ (by decide +kernel) text seconds

/-! ### Lines of a summary -/

def otherHeads : List String :=
  ["Benchmark: ", "Duration: ", "-", "Throughput:  ", "Latency:", "  ", "Resources:", "Results stored (run_id=",
    "Database stats (benchmark_stats view): p50 "]

/-- A line that begins in one of these ways, and that nothing breaks. -/
def Headed (line : String) : Prop := ∃ head ∈ otherHeads, ∃ tail, Unbroken tail ∧ line = head ++ tail

def requestsLabel : List Char := "Requests:    ".toList

def errorsLabel : List Char := "Errors:      ".toList

variable {line : String} {lines : List String}

theorem Headed.unbroken (h : Headed line) : Unbroken line := by
  obtain ⟨head, known, tail, whole, rfl⟩ := h
  have heads : ∀ head ∈ otherHeads, Unbroken head := by decide +kernel
  exact (heads head known).append whole

theorem filter_headed {label : List Char} (apart : ∀ head ∈ otherHeads, differ label head.toList = true)
    (h : ∀ line ∈ lines, Headed line) : (lines.map String.toList).filter label.isPrefixOf = [] := by
  rw [List.filter_eq_nil_iff]
  intro text ht
  obtain ⟨line, hmem, rfl⟩ := List.mem_map.1 ht
  obtain ⟨head, known, tail, _, rfl⟩ := h line hmem
  rw [String.toList_append]
  exact ne_true_of_eq_false (isPrefixOf_of_differ (differ_append (apart head known) tail.toList))

theorem headed_latencyLine {label : String} (h : Unbroken label) (latency : Span) : Headed (latencyLine label latency) := by
  refine ⟨"  ", by decide, label ++ ":  " ++ Decimal.fixed 2 latency.toMillis ++ "ms", ?_, ?_⟩
  · exact ((h.append (by decide +kernel)).append (Decimal.unbroken_fixed _ _)).append (by decide +kernel)
  · simp only [latencyLine, String.append_assoc]

theorem headed_resourceLines (resources : Option ResourceStats) : ∀ line ∈ resourceLines resources, Headed line := by
  have figure : ∀ (label unit : String) (x : Float), Unbroken label → Unbroken unit →
      Headed ("  " ++ label ++ Decimal.fixed 1 x ++ unit) := by
    intro label unit x hl hu
    refine ⟨"  ", by decide, label ++ Decimal.fixed 1 x ++ unit, (hl.append (Decimal.unbroken_fixed 1 x)).append hu, ?_⟩
    simp only [String.append_assoc]
  cases resources with
  | none => simp [resourceLines]
  | some r =>
    simp only [resourceLines, List.forall_mem_cons]
    refine ⟨⟨"Resources:", by decide, "", by decide +kernel, rfl⟩, ?_, ?_, ?_, fun _ hl => nomatch hl⟩
    · exact figure "CPU avg:   " "%" r.cpuAvgPercent (by decide +kernel) (by decide +kernel)
    · exact figure "Mem avg:   " " MB" r.memoryAvgMb (by decide +kernel) (by decide +kernel)
    · exact figure "Mem peak:  " " MB" r.memoryPeakMb (by decide +kernel) (by decide +kernel)

namespace RunReport

theorem summaryLines_eq (r : RunReport) : ∃ before between after rest, Unbroken rest ∧
    r.summaryLines = before ++ ("Requests:    " ++ toString r.statistics.totalRequests) ::
      (between ++ ("Errors:      " ++ toString r.statistics.failedRequests ++ " " ++ rest) :: after) ∧
    (∀ line ∈ before, Headed line) ∧ (∀ line ∈ between, Headed line) ∧ ∀ line ∈ after, Headed line := by
  let s := r.statistics
  refine ⟨["Benchmark: " ++ r.metadata.scenario.name ++ " / " ++ r.metadata.protocol.name,
      "Duration: " ++ s.duration.human ++ " | Concurrency: " ++ toString r.metadata.concurrency,
      String.ofList (List.replicate 33 '-')],
    ["Throughput:  " ++ Decimal.fixed 2 s.throughput ++ " req/s", "Latency:", latencyLine "p50" s.latencyP50,
      latencyLine "p90" s.latencyP90, latencyLine "p99" s.latencyP99, latencyLine "avg" s.latencyAvg,
      latencyLine "min" s.latencyMin, latencyLine "max" s.latencyMax],
    resourceLines s.resources, "(" ++ Decimal.fixed 2 s.errorRate ++ "%)", ?_, ?_, ?_, ?_, headed_resourceLines _⟩
  · exact (Unbroken.append (by decide +kernel) (Decimal.unbroken_fixed _ _)).append (by decide +kernel)
  · simp only [summaryLines, List.cons_append, List.nil_append, String.append_assoc]
    rfl
  · simp only [List.forall_mem_cons]
    refine ⟨⟨"Benchmark: ", by decide, r.metadata.scenario.name ++ " / " ++ r.metadata.protocol.name, ?_, ?_⟩,
      ⟨"Duration: ", by decide, s.duration.human ++ " | Concurrency: " ++ toString r.metadata.concurrency, ?_, ?_⟩,
      ⟨"-", by decide, String.ofList (List.replicate 32 '-'), by decide +kernel, by decide +kernel⟩,
      fun _ hl => nomatch hl⟩
    · refine (Unbroken.append ?_ (by decide +kernel)).append ?_
      · cases r.metadata.scenario <;> decide +kernel
      · cases r.metadata.protocol <;> decide +kernel
    · simp only [String.append_assoc]
    · exact (s.duration.unbroken_human.append (by decide +kernel)).append (unbroken_nat _)
    · simp only [String.append_assoc]
  · simp only [List.forall_mem_cons]
    refine ⟨⟨"Throughput:  ", by decide, Decimal.fixed 2 s.throughput ++ " req/s", ?_, ?_⟩,
      ⟨"Latency:", by decide, "", by decide +kernel, rfl⟩, headed_latencyLine (by decide +kernel) _,
      headed_latencyLine (by decide +kernel) _, headed_latencyLine (by decide +kernel) _,
      headed_latencyLine (by decide +kernel) _, headed_latencyLine (by decide +kernel) _,
      headed_latencyLine (by decide +kernel) _, fun _ hl => nomatch hl⟩
    · exact (Decimal.unbroken_fixed _ _).append (by decide +kernel)
    · simp only [String.append_assoc]

theorem toList_summary (r : RunReport) : r.summary.toList = printed (r.summaryLines.map String.toList) := by
  rw [summary, String.toList_join, printed, List.flatMap_map, List.flatMap_map]
  simp only [String.toList_append]
  rfl

theorem unbroken_summaryLines (r : RunReport) : ∀ line ∈ r.summaryLines, Unbroken line := by
  obtain ⟨before, between, after, rest, whole, lines, first, second, third⟩ := r.summaryLines_eq
  rw [lines]
  simp only [List.forall_mem_append, List.forall_mem_cons]
  refine ⟨fun line hl => (first line hl).unbroken, ?_, fun line hl => (second line hl).unbroken, ?_,
    fun line hl => (third line hl).unbroken⟩
  · exact Unbroken.append (by decide +kernel) (unbroken_nat _)
  · exact ((Unbroken.append (by decide +kernel) (unbroken_nat _)).append (by decide +kernel)).append whole

theorem shown_number {label : List Char} (n : Nat) {rest : List Char} (h : ∀ c ∈ rest.head?, isDigit c = false) :
    digitsValue (((label ++ (decimal n ++ rest)).drop label.length).takeWhile isDigit) = n := by
  rw [List.drop_left, takeWhile_decimal n h, digitsValue_decimal]

/-- A summary that is printed between empty lines, with other lines after it, shows one number of requests and one number
of errors. -/
theorem numbers_of_summary (r : RunReport) (more : List String) (h : ∀ line ∈ more, Headed line) :
    let text := printed ([] :: r.summaryLines.map String.toList ++ [] :: more.map String.toList)
    numbersAfter requestsLabel text = [r.statistics.totalRequests] ∧
    numbersAfter errorsLabel text = [r.statistics.failedRequests] := by
  intro text
  have unbroken : ∀ line ∈ [] :: r.summaryLines.map String.toList ++ [] :: more.map String.toList, '\n' ∉ line := by
    simp only [List.forall_mem_append, List.forall_mem_cons, List.forall_mem_map]
    exact ⟨⟨List.not_mem_nil, r.unbroken_summaryLines⟩, List.not_mem_nil, fun line hl => (h line hl).unbroken⟩
  obtain ⟨before, between, after, rest, _, lines, first, second, third⟩ := r.summaryLines_eq
  have parts : [] :: r.summaryLines.map String.toList ++ [] :: more.map String.toList =
      [] :: (before.map String.toList ++ (requestsLabel ++ (decimal r.statistics.totalRequests ++ [])) ::
        (between.map String.toList ++ (errorsLabel ++ (decimal r.statistics.failedRequests ++ ' ' :: rest.toList)) ::
          (after.map String.toList ++ [] :: more.map String.toList))) := by
    rw [lines]
    simp only [List.map_append, List.map_cons, String.toList_append, toList_toString, List.append_nil, List.cons_append,
      List.append_assoc]
    rfl
  have found : ∀ label : List Char, (∀ head ∈ otherHeads, differ label head.toList = true) → label ≠ [] →
      numbersAfter label text = ([requestsLabel ++ (decimal r.statistics.totalRequests ++ []),
        errorsLabel ++ (decimal r.statistics.failedRequests ++ ' ' :: rest.toList)].filter label.isPrefixOf).map
          fun line => digitsValue ((line.drop label.length).takeWhile isDigit) := by
    intro label apart named
    rw [numbersAfter_printed unbroken named, parts]
    simp only [List.filter_cons, List.filter_append, List.filter_nil, List.nil_append, isPrefixOf_empty named,
      Bool.false_eq_true, ↓reduceIte, filter_headed apart first, filter_headed apart second,
      filter_headed apart third, filter_headed apart h]
  constructor
  · rw [found requestsLabel (by decide +kernel) (by decide)]
    have other : requestsLabel.isPrefixOf (errorsLabel ++ (decimal r.statistics.failedRequests ++ ' ' :: rest.toList)) =
      false := isPrefixOf_of_differ (differ_append (by decide +kernel) _)
    rw [List.filter_cons_of_pos (by simp), List.filter_cons_of_neg (ne_true_of_eq_false other), List.filter_nil,
      List.map_singleton, shown_number _ (by simp)]
  · rw [found errorsLabel (by decide +kernel) (by decide)]
    have other : errorsLabel.isPrefixOf (requestsLabel ++ (decimal r.statistics.totalRequests ++ [])) =
      false := isPrefixOf_of_differ (differ_append (by decide +kernel) _)
    rw [List.filter_cons_of_neg (ne_true_of_eq_false other), List.filter_cons_of_pos (by simp), List.filter_nil,
      List.map_singleton, shown_number _ (by simp; decide)]

end RunReport

end LedgerLoad
