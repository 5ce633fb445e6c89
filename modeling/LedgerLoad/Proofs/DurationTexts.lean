import Mathlib.Data.List.TakeWhile
import LedgerLoad.Proofs.TextParts
import LedgerLoad.Time.Parse

/-!
Which spans can be written as durations: whole seconds, as many as 64 bits count.
-/

set_option autoImplicit false

namespace LedgerLoad

namespace Text

variable {c : Char} {s : List Char}

theorem not_isBlank_of_isDigit (h : isDigit c = true) : isBlank c = false := by
  obtain ⟨least, most⟩ := isDigit_iff.1 h
  simp only [isBlank, Bool.or_eq_false_iff, Bool.and_eq_false_iff, decide_eq_false_iff_not, beq_eq_false_iff_ne]
  omega

theorem lower_of_isDigit (h : isDigit c = true) : lower c = c := by
  obtain ⟨_, most⟩ := isDigit_iff.1 h
  have notCapital : ¬ (c.val ≥ 65 ∧ c.val ≤ 90) := by
    rintro ⟨capital, _⟩
    have least : 65 ≤ c.toNat := UInt32.le_iff_toNat_le.1 capital
    omega
  exact dif_neg notCapital

theorem normalize_of_digits (h : ∀ c ∈ s, isDigit c = true) : normalize s = s := by
  have clean : ∀ t : List Char, (∀ c ∈ t, isDigit c = true) → t.dropWhile isBlank = t := by
    intro t ht
    rw [List.dropWhile_eq_self_iff]
    intro _
    simp [not_isBlank_of_isDigit (ht _ (List.getElem_mem _))]
  have trimmed : trim s = s := by
    rw [trim, clean s h, clean s.reverse (fun c hc => h c (by simpa using hc)), List.reverse_reverse]
  rw [normalize, trimmed]
  calc s.map lower = s.map id := List.map_congr_left fun c hc => lower_of_isDigit (h c hc)
    _ = s := List.map_id s

end Text

namespace Span

variable {text : String} {s : Span} {n : Nat}

theorem ofSecs_nanos (h : n < 0x10000000000000000) : (ofSecs n).nanos = n * 1000000000 := by
  have : limit = 18446744073709551616000000000 := rfl
  exact ofNanos_of_lt (by omega)

theorem unitSecs_pos {unit : List Char} {k : Nat} (h : unitSecs? unit = some k) : 0 < k := by
  unfold unitSecs? at h
  split at h <;> cases h <;> decide

/-- A number that is too large by itself is so in any unit. -/
theorem parse_of_unit {digits unit : List Char} {k : Nat} (front : (Text.normalize text.toList).takeWhile Text.isDigit = digits)
    (back : (Text.normalize text.toList).dropWhile Text.isDigit = unit) (written : digits ≠ [])
    (named : unitSecs? unit = some k) :
    parse text = if Text.digitsValue digits * k < 0x10000000000000000 then .ok (ofSecs (Text.digitsValue digits * k))
      else .error (.overflow text) := by
  have all : ∀ c ∈ digits, Text.isDigit c = true := fun c hc => List.mem_takeWhile_imp (front ▸ hc)
  have most : maxSecs + 1 = 0x10000000000000000 := rfl
  have larger := Nat.le_mul_of_pos_right (Text.digitsValue digits) (unitSecs_pos named)
  simp only [parse, front, back, List.isEmpty_iff, written, if_false, named, Text.parseNumber_digits written all]
  by_cases counted : Text.digitsValue digits ≤ maxSecs
  · simp only [counted, if_true, ← most, Nat.lt_succ_iff]
  · have large : ¬ Text.digitsValue digits * k < 0x10000000000000000 := by omega
    simp only [counted, large, if_false]

theorem parse_decimal (h : n < 0x10000000000000000) :
    Span.parse (String.ofList (Text.decimal n)) = .ok (ofSecs n) := by
  have digits : ∀ c ∈ Text.decimal n, Text.isDigit c = true := fun c hc => Text.isDigit_of_mem_decimal hc
  have norm : Text.normalize (String.ofList (Text.decimal n)).toList = Text.decimal n := by
    rw [String.toList_ofList, Text.normalize_of_digits digits]
  have all : (Text.normalize (String.ofList (Text.decimal n)).toList).takeWhile Text.isDigit = Text.decimal n := by
    rw [norm, List.takeWhile_eq_self_iff.2 digits]
  have rest : (Text.normalize (String.ofList (Text.decimal n)).toList).dropWhile Text.isDigit = [] := by
    rw [norm, List.dropWhile_eq_nil_iff.2 digits]
  have written : Text.decimal n ≠ [] := Nat.toDigits_ne_nil
  have read := parse_of_unit all rest written rfl
  rwa [Text.digitsValue_decimal, Nat.mul_one, if_pos h] at read

theorem secs_of_parse (h : Span.parse text = .ok s) : ∃ n, n < 0x10000000000000000 ∧ s = ofSecs n := by
  by_cases written : (Text.normalize text.toList).takeWhile Text.isDigit = []
  · simp only [parse, List.isEmpty_iff, written, if_true] at h
    cases h
  · cases named : unitSecs? ((Text.normalize text.toList).dropWhile Text.isDigit) with
    | none =>
      simp only [parse, List.isEmpty_iff, written, if_false, named] at h
      cases h
    | some k =>
      rw [parse_of_unit rfl rfl written named] at h
      split at h
      · rename_i inRange
        cases h
        exact ⟨_, inRange, rfl⟩
      · cases h

theorem exists_text_iff : (∃ text, Span.parse text = .ok s) ↔ ∃ n, n < 0x10000000000000000 ∧ s = ofSecs n := by
  constructor
  · rintro ⟨text, h⟩
    exact secs_of_parse h
  · rintro ⟨n, h, rfl⟩
    exact ⟨_, parse_decimal h⟩

end Span

end LedgerLoad
