import Mathlib.Data.List.TakeWhile
import LedgerLoad.Text.Fields
import LedgerLoad.Text.Number

/-!
Texts in parts and the digits of numbers, as far as more than one format needs them.
-/

set_option autoImplicit false

namespace LedgerLoad.Text

variable {sep : Char → Bool} {c : Char} {s t : List Char}

/-! ### Parts -/

theorem splitOn_append_cons (hs : ∀ c ∈ s, sep c = false) (hc : sep c = true) (t : List Char) :
    splitOn sep (s ++ c :: t) = s :: splitOn sep t := by
  induction s with
  | nil =>
    cases fields : splitOn sep t with
    | nil => exact absurd fields (splitOn_ne_nil sep t)
    | cons field more => simp [splitOn, fields, hc]
  | cons x s ih =>
    rw [List.cons_append, splitOn, ih fun y hy => hs y (List.mem_cons_of_mem x hy)]
    simp [hs x]

theorem head?_splitOn (sep : Char → Bool) (s : List Char) :
    (splitOn sep s).head? = some (s.takeWhile fun c => !sep c) := by
  induction s with
  | nil => rfl
  | cons c s ih =>
    cases fields : splitOn sep s with
    | nil => exact absurd fields (splitOn_ne_nil sep s)
    | cons field more =>
      rw [fields] at ih
      cases ends : sep c <;> simp_all [splitOn]

/-! ### Digits -/

theorem isDigit_iff : isDigit c = true ↔ 48 ≤ c.toNat ∧ c.toNat ≤ 57 := by
  simp only [isDigit, Char.isDigit, Bool.and_eq_true, decide_eq_true_eq, ge_iff_le, UInt32.le_iff_toNat_le]
  rfl

theorem digitsValue_append (ds : List Char) : digitsValue (ds ++ [c]) = digitsValue ds * 10 + digitValue c := by
  simp [digitsValue]

theorem le_foldl_digits (ds : List Char) (n : Nat) : n ≤ ds.foldl (fun n c => n * 10 + digitValue c) n := by
  induction ds generalizing n with
  | nil => exact Nat.le_refl n
  | cons c ds ih => exact Nat.le_trans (by omega) (ih (n * 10 + digitValue c))

theorem takeDigits_digits {most n : Nat} (digits : ∀ c ∈ s, isDigit c = true) (h : n ≤ most) :
    takeDigits most n s =
      if s.foldl (fun n c => n * 10 + digitValue c) n ≤ most then .ok (s.foldl (fun n c => n * 10 + digitValue c) n)
      else .error .tooLarge := by
  induction s generalizing n with
  | nil => rw [takeDigits, List.foldl_nil, if_pos h]
  | cons c s ih =>
    rw [takeDigits, if_pos (digits c List.mem_cons_self), List.foldl_cons]
    by_cases small : n * 10 + digitValue c ≤ most
    · simp only [small, if_true, ih (fun c hc => digits c (List.mem_cons_of_mem _ hc)) small]
    · have large : ¬ s.foldl (fun n c => n * 10 + digitValue c) (n * 10 + digitValue c) ≤ most := fun atMost =>
        small (Nat.le_trans (le_foldl_digits s _) atMost)
      simp only [small, large, if_false]

theorem parseNumber_digits {most : Nat} (written : s ≠ []) (digits : ∀ c ∈ s, isDigit c = true) :
    parseNumber most s = if digitsValue s ≤ most then .ok (digitsValue s) else .error .tooLarge := by
  have unsigned : ∀ r, s ≠ '+' :: r := by
    rintro r rfl
    exact absurd (digits '+' List.mem_cons_self) (by decide)
  unfold parseNumber
  split
  · exact absurd rfl written
  · exact absurd rfl (unsigned [])
  · exact absurd rfl (unsigned _)
  · exact takeDigits_digits digits (Nat.zero_le most)

theorem digitsValue_decimal (n : Nat) : digitsValue (decimal n) = n := by
  induction n using Nat.strongRecOn with
  | ind n ih =>
    rw [decimal, Nat.toDigits_eq_if (by decide)]
    split
    · rename_i small
      simpa [digitsValue, digitValue] using Nat.toNat_digitChar_sub_48_of_lt_ten small
    · rename_i large
      have before := ih (n / 10) (by omega)
      rw [decimal] at before
      rw [digitsValue_append, before, digitValue, Nat.toNat_digitChar_sub_48_of_lt_ten (by omega)]
      omega

theorem isDigit_of_mem_decimal {n : Nat} (hc : c ∈ decimal n) : isDigit c = true :=
  Nat.isDigit_of_mem_toDigits (by decide) (by decide) hc

theorem toList_toString (n : Nat) : (toString n).toList = decimal n := Nat.toList_repr

theorem isDigit_of_mem_padded {width n : Nat} (hc : c ∈ padded width n) : isDigit c = true := by
  obtain ⟨k, _, rfl⟩ := List.mem_map.1 hc
  simp [isDigit, Nat.isDigit_digitChar, Nat.mod_lt]

theorem takeWhile_append_stop (s : List Char) (h : ∀ c ∈ t.head?, isDigit c = false) :
    (s ++ t).takeWhile isDigit = s.takeWhile isDigit := by
  induction s with
  | nil =>
    cases t with
    | nil => rfl
    | cons c t => simp [h c rfl]
  | cons c s ih => simp [List.takeWhile_cons, ih]

theorem dropWhile_append_stop (s : List Char) (h : ∀ c ∈ t.head?, isDigit c = false) :
    (s ++ t).dropWhile isDigit = s.dropWhile isDigit ++ t := by
  have whole := List.takeWhile_append_dropWhile (p := isDigit) (l := s ++ t)
  have part := List.takeWhile_append_dropWhile (p := isDigit) (l := s)
  rw [takeWhile_append_stop s h] at whole
  have same : s.takeWhile isDigit ++ (s ++ t).dropWhile isDigit = s.takeWhile isDigit ++ (s.dropWhile isDigit ++ t) := by
    rw [whole, ← List.append_assoc, part]
  exact List.append_cancel_left same

theorem takeWhile_digits (hs : ∀ c ∈ s, isDigit c = true) (h : ∀ c ∈ t.head?, isDigit c = false) :
    (s ++ t).takeWhile isDigit = s := by
  rw [takeWhile_append_stop s h, List.takeWhile_eq_self_iff.2 hs]

theorem dropWhile_digits (hs : ∀ c ∈ s, isDigit c = true) (h : ∀ c ∈ t.head?, isDigit c = false) :
    (s ++ t).dropWhile isDigit = t := by
  rw [dropWhile_append_stop s h, List.dropWhile_eq_nil_iff.2 hs, List.nil_append]

theorem takeWhile_decimal (n : Nat) (h : ∀ c ∈ t.head?, isDigit c = false) :
    (decimal n ++ t).takeWhile isDigit = decimal n :=
  takeWhile_digits (fun _ => isDigit_of_mem_decimal) h

end LedgerLoad.Text
