import Mathlib.Data.Nat.Digits.Defs
import LedgerLoad.Proofs.DurationTexts

/-!
Which texts are durations, and what is said of the others.

A duration is a row of digits with a unit or none behind it, once the blanks around it are gone and capitals are folded. The
grammar says nothing of how a text is read. Reading follows it in all three outcomes: a span, a number that is too large,
and a text that is no duration at all, however large the number in front.
-/

set_option autoImplicit false

namespace LedgerLoad

namespace Text

variable {s core front back digits unit : List Char} {c : Char} {n k : Nat}

/-! ### Blanks around a text -/

structure Trims (s core : List Char) : Prop where
  parts : ∃ front back, s = front ++ core ++ back ∧ (∀ c ∈ front, isBlank c = true) ∧ ∀ c ∈ back, isBlank c = true
  first : ∀ c ∈ core.head?, isBlank c = false
  last : ∀ c ∈ core.getLast?, isBlank c = false

theorem dropWhile_blanks (blanks : ∀ c ∈ front, isBlank c = true) (first : ∀ c ∈ core.head?, isBlank c = false) :
    (front ++ core).dropWhile isBlank = core := by
  rw [List.dropWhile_append_of_pos blanks]
  cases core with
  | nil => rfl
  | cons c core => rw [List.dropWhile_cons_of_neg (by simp [first c rfl])]

theorem isBlank_head?_dropWhile (s : List Char) (h : c ∈ (s.dropWhile isBlank).head?) : isBlank c = false := by
  have stopped := List.head?_dropWhile_not isBlank s
  rw [Option.mem_def] at h
  rw [h] at stopped
  simpa using stopped

/-- The blanks at the back are those at the front of the text turned round. -/
theorem dropWhile_eq_trim_append (s : List Char) :
    s.dropWhile isBlank = trim s ++ ((s.dropWhile isBlank).reverse.takeWhile isBlank).reverse := by
  have turned := List.takeWhile_append_dropWhile (p := isBlank) (l := (s.dropWhile isBlank).reverse)
  have whole := congrArg List.reverse turned
  rw [List.reverse_append, List.reverse_reverse] at whole
  exact whole.symm

theorem trims_trim (s : List Char) : Trims s (trim s) where
  parts := by
    refine ⟨s.takeWhile isBlank, ((s.dropWhile isBlank).reverse.takeWhile isBlank).reverse, ?_,
      fun c hc => List.mem_takeWhile_imp hc, fun c hc => List.mem_takeWhile_imp (List.mem_reverse.1 hc)⟩
    rw [List.append_assoc, ← dropWhile_eq_trim_append, List.takeWhile_append_dropWhile]
  first := by
    intro c hc
    refine isBlank_head?_dropWhile s ?_
    rw [dropWhile_eq_trim_append, List.head?_append, Option.mem_def.1 hc]
    rfl
  last := by
    intro c hc
    rw [trim, List.getLast?_reverse] at hc
    exact isBlank_head?_dropWhile _ hc

theorem Trims.eq_trim (h : Trims s core) : core = trim s := by
  obtain ⟨front, back, rfl, before, after⟩ := h.parts
  cases parts : core with
  | nil =>
    have blanks : ∀ c ∈ front ++ [] ++ back, isBlank c = true := by
      intro c hc
      rw [List.append_nil, List.mem_append] at hc
      exact hc.elim (before c) (after c)
    rw [trim, List.dropWhile_eq_nil_iff.2 blanks]
    rfl
  | cons c rest =>
    rw [← parts]
    have atFront : (front ++ core ++ back).dropWhile isBlank = core ++ back := by
      rw [List.append_assoc]
      refine dropWhile_blanks before fun d hd => h.first d ?_
      rw [parts] at hd ⊢
      exact hd
    have atBack : (core ++ back).reverse.dropWhile isBlank = core.reverse := by
      rw [List.reverse_append]
      refine dropWhile_blanks (fun d hd => after d (List.mem_reverse.1 hd)) fun d hd => h.last d ?_
      rwa [List.head?_reverse] at hd
    rw [trim, atFront, atBack, List.reverse_reverse]

theorem trims_iff : Trims s core ↔ core = trim s :=
  ⟨Trims.eq_trim, fun h => h ▸ trims_trim s⟩

/-! ### Numbers with a unit -/

inductive TimeUnit : List Char → Nat → Prop where
  | none : TimeUnit [] 1
  | second : TimeUnit ['s'] 1
  | minute : TimeUnit ['m'] 60
  | hour : TimeUnit ['h'] 3600

theorem timeUnit_iff : TimeUnit unit k ↔ Span.unitSecs? unit = some k := by
  constructor
  · rintro (_ | _ | _ | _) <;> rfl
  · intro h
    unfold Span.unitSecs? at h
    split at h <;> cases h
    · exact .none
    · exact .second
    · exact .minute
    · exact .hour

theorem TimeUnit.pos (h : TimeUnit unit k) : 0 < k := Span.unitSecs_pos (timeUnit_iff.1 h)

theorem TimeUnit.no_digit (h : TimeUnit unit k) : ∀ c ∈ unit.head?, isDigit c = false := by
  intro c first
  cases h <;> cases first <;> rfl

/-- A text is a number, written with one ASCII digit or more, and a unit of so many seconds. -/
def CountsUnits (t : List Char) (n k : Nat) : Prop :=
  ∃ digits unit, t = digits ++ unit ∧ digits ≠ [] ∧ (∀ c ∈ digits, '0' ≤ c ∧ c ≤ '9') ∧
    n = Nat.ofDigits 10 (digits.reverse.map fun c => c.toNat - '0'.toNat) ∧ TimeUnit unit k

theorem isDigit_iff_between : isDigit c = true ↔ '0' ≤ c ∧ c ≤ '9' := isDigit_iff

theorem digitsValue_eq_ofDigits (digits : List Char) :
    digitsValue digits = Nat.ofDigits 10 (digits.reverse.map fun c => c.toNat - '0'.toNat) := by
  rw [Nat.ofDigits_eq_foldr, List.foldr_map, List.foldr_reverse]
  refine congrArg (fun f => digits.foldl f 0) ?_
  funext n c
  change n * 10 + (c.toNat - 48) = (c.toNat - 48) + 10 * n
  omega

theorem countsUnits_iff {t : List Char} : CountsUnits t n k ↔
    t.takeWhile isDigit ≠ [] ∧ n = digitsValue (t.takeWhile isDigit) ∧
      Span.unitSecs? (t.dropWhile isDigit) = some k := by
  constructor
  · rintro ⟨digits, unit, rfl, written, all, value, named⟩
    have all : ∀ c ∈ digits, isDigit c = true := fun c hc => isDigit_iff_between.2 (all c hc)
    rw [takeWhile_digits all named.no_digit, dropWhile_digits all named.no_digit, digitsValue_eq_ofDigits]
    exact ⟨written, value, timeUnit_iff.1 named⟩
  · rintro ⟨written, value, named⟩
    refine ⟨_, _, List.takeWhile_append_dropWhile.symm, written, fun c hc => ?_, ?_, timeUnit_iff.2 named⟩
    · exact isDigit_iff_between.1 (List.mem_takeWhile_imp hc)
    · rw [value, digitsValue_eq_ofDigits]

theorem CountsUnits.le_mul {t : List Char} (h : CountsUnits t n k) : n ≤ n * k := by
  obtain ⟨_, _, _, _, _, _, named⟩ := h
  exact Nat.le_mul_of_pos_right n named.pos

end Text

namespace Span

open Text (CountsUnits Trims normalize)

variable {v : String} {n k : Nat} {s : Span} {e : DurationError}

/-! ### Reading -/

theorem parse_of_countsUnits (h : CountsUnits (normalize v.toList) n k) :
    parse v = if n * k < 0x10000000000000000 then .ok (ofSecs (n * k)) else .error (.overflow v) := by
  obtain ⟨written, rfl, named⟩ := Text.countsUnits_iff.1 h
  exact parse_of_unit rfl rfl written named

theorem parse_of_not_countsUnits (h : ∀ n k, ¬ CountsUnits (normalize v.toList) n k) : parse v = .error (.invalid v) := by
  by_cases written : (normalize v.toList).takeWhile Text.isDigit = []
  · simp only [parse, List.isEmpty_iff, written, if_true]
  · cases named : unitSecs? ((normalize v.toList).dropWhile Text.isDigit) with
    | none => simp only [parse, List.isEmpty_iff, written, if_false, named]
    | some k => exact absurd (Text.countsUnits_iff.2 ⟨written, rfl, named⟩) (h _ k)

theorem parse_eq_ok_iff : parse v = .ok s ↔
    ∃ n k, CountsUnits (normalize v.toList) n k ∧ n * k ≤ 0xFFFFFFFFFFFFFFFF ∧ s.nanos = n * k * 1000000000 := by
  constructor
  · intro h
    by_cases counts : ∃ n k, CountsUnits (normalize v.toList) n k
    · obtain ⟨n, k, counts⟩ := counts
      rw [parse_of_countsUnits counts] at h
      split at h
      · rename_i inRange
        cases h
        exact ⟨n, k, counts, Nat.le_of_lt_succ inRange, ofSecs_nanos inRange⟩
      · cases h
    · rw [parse_of_not_countsUnits fun n k h => counts ⟨n, k, h⟩] at h
      cases h
  · rintro ⟨n, k, counts, inRange, nanos⟩
    have inRange : n * k < 0x10000000000000000 := Nat.lt_succ_of_le inRange
    rw [parse_of_countsUnits counts, if_pos inRange]
    exact congrArg Except.ok (ext_nanos ((ofSecs_nanos inRange).trans nanos.symm))

theorem parse_eq_error_iff : parse v = .error e ↔
    (e = .overflow v ∧ ∃ n k, CountsUnits (normalize v.toList) n k ∧
      (0xFFFFFFFFFFFFFFFF < n ∨ 0xFFFFFFFFFFFFFFFF < n * k)) ∨
    (e = .invalid v ∧ ∀ n k, ¬ CountsUnits (normalize v.toList) n k) := by
  constructor
  · intro h
    by_cases counts : ∃ n k, CountsUnits (normalize v.toList) n k
    · obtain ⟨n, k, counts⟩ := counts
      rw [parse_of_countsUnits counts] at h
      split at h
      · cases h
      · rename_i large
        cases h
        exact .inl ⟨rfl, n, k, counts, .inr (Nat.lt_of_succ_le (Nat.le_of_not_lt large))⟩
    · have none : ∀ n k, ¬ CountsUnits (normalize v.toList) n k := fun n k h => counts ⟨n, k, h⟩
      rw [parse_of_not_countsUnits none] at h
      cases h
      exact .inr ⟨rfl, none⟩
  · rintro (⟨rfl, n, k, counts, large⟩ | ⟨rfl, none⟩)
    · have atMost := counts.le_mul
      rw [parse_of_countsUnits counts, if_neg (by omega)]
    · exact parse_of_not_countsUnits none

/-- Of every text, what it comes to is told by what is left of it without the blanks around it and with small letters. A
number with a unit is that many seconds as long as they fit in 64 bits, and too large beyond; nothing else is a duration,
whatever its digits come to. Both errors carry the text as it was given. -/
theorem parse_by_grammar (v : String) :
    ∃ core, (∀ other, Trims v.toList other ↔ other = core) ∧
      (∀ s, parse v = .ok s ↔ ∃ n k, CountsUnits (core.map Text.lower) n k ∧ n * k ≤ 0xFFFFFFFFFFFFFFFF ∧
        s.nanos = n * k * 1000000000) ∧
      ∀ e, parse v = .error e ↔
        (e = .overflow v ∧ ∃ n k, CountsUnits (core.map Text.lower) n k ∧
          (0xFFFFFFFFFFFFFFFF < n ∨ 0xFFFFFFFFFFFFFFFF < n * k)) ∨
        (e = .invalid v ∧ ∀ n k, ¬ CountsUnits (core.map Text.lower) n k) :=
  ⟨Text.trim v.toList, fun _ => Text.trims_iff, fun _ => parse_eq_ok_iff, fun _ => parse_eq_error_iff⟩

/-- Leading zeros count for nothing, a bad unit comes before a number that is too large, and digits are those of ASCII. -/
example : parse "\u00a0007M " = .ok (ofSecs 420) ∧ parse "307445734561825861m" = .error (.overflow "307445734561825861m") ∧
    parse "99999999999999999999x" = .error (.invalid "99999999999999999999x") ∧
    parse "\uff11s" = .error (.invalid "\uff11s") := by decide

end Span

end LedgerLoad
