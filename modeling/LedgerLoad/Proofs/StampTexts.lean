import LedgerLoad.Time.Stamp
import LedgerLoad.Proofs.TextParts

/-!
A stamp in UTC is read back from its text.

A day is looked up in a calendar whose years begin with March. The year in which a day lies is found by a quotient that
never falls from one day to the next; so it is enough to check it on the first and the last day of each of 400 years.
-/

set_option autoImplicit false

namespace LedgerLoad

namespace Day

def daysBefore (year : Nat) : Nat := 365 * year + year / 4 - year / 100 + year / 400

def yearOf (day : Nat) : Nat := (day - day / 1460 + day / 36524 - day / 146096) / 365

/-- The day of a year that begins with March. -/
def fromMarch (year : Int) (day : Nat) : Day :=
  let month := (5 * day + 2) / 153
  ⟨if month < 10 then year else year + 1, if month < 10 then month + 3 else month - 9,
    day - (153 * month + 2) / 5 + 1⟩

structure Valid (d : Day) : Prop where
  month : 1 ≤ d.month ∧ d.month ≤ 12
  day : 1 ≤ d.day ∧ d.day ≤ inMonth d.year d.month

theorem yearOf_le_succ {day : Nat} (h : day < 146096) : yearOf day ≤ yearOf (day + 1) := by
  unfold yearOf
  omega

theorem yearOf_mono {first second : Nat} (order : first ≤ second) (within : second ≤ 146096) :
    yearOf first ≤ yearOf second := by
  induction order with
  | refl => exact Nat.le_refl _
  | @step m _ ih => exact Nat.le_trans (ih (by omega)) (yearOf_le_succ (by omega))

theorem yearOf_daysBefore : ∀ year < 400, yearOf (daysBefore year) = year ∧ yearOf (daysBefore (year + 1) - 1) = year := by
  decide +kernel

theorem exists_year {day : Nat} (n : Nat) (h : day < daysBefore n) :
    ∃ year < n, daysBefore year ≤ day ∧ day < daysBefore (year + 1) := by
  induction n with
  | zero => exact absurd h (Nat.not_lt_zero _)
  | succ n ih =>
    obtain before | here := Nat.lt_or_ge day (daysBefore n)
    · obtain ⟨year, within, bounds⟩ := ih before
      exact ⟨year, by omega, bounds⟩
    · exact ⟨n, by omega, here, h⟩

theorem yearOf_eq {day year : Nat} (within : year < 400) (from_ : daysBefore year ≤ day)
    (until_ : day < daysBefore (year + 1)) : yearOf day = year := by
  obtain ⟨first, last⟩ := yearOf_daysBefore year within
  have bound : daysBefore (year + 1) ≤ 146097 := by unfold daysBefore; omega
  have low := yearOf_mono from_ (by omega)
  have high : yearOf day ≤ yearOf (daysBefore (year + 1) - 1) := yearOf_mono (by omega) (by omega)
  omega

theorem daysBefore_succ (year : Nat) :
    daysBefore year + 365 ≤ daysBefore (year + 1) ∧ daysBefore (year + 1) ≤ daysBefore year + 366 := by
  unfold daysBefore
  omega

theorem ofNumber_eq (n : Int) : ∃ (era : Int) (year day : Nat), year < 400 ∧
    daysBefore year + day < daysBefore (year + 1) ∧
    n + 719468 = era * 146097 + (daysBefore year : Nat) + (day : Nat) ∧
    ofNumber n = fromMarch (year + era * 400) day := by
  obtain ⟨e, he⟩ : ∃ e : Nat, n + 719468 - (n + 719468) / 146097 * 146097 = e := ⟨_, (Int.toNat_of_nonneg (by omega)).symm⟩
  have small : e < daysBefore 400 := by
    have total : daysBefore 400 = 146097 := rfl
    omega
  obtain ⟨year, within, from_, until_⟩ := exists_year 400 small
  obtain ⟨day, rfl⟩ : ∃ day, e = daysBefore year + day := ⟨e - daysBefore year, by omega⟩
  refine ⟨(n + 719468) / 146097, year, day, within, until_, by omega, ?_⟩
  have found : ((daysBefore year + day : Nat) - ((daysBefore year + day : Nat) : Int) / 1460 +
      ((daysBefore year + day : Nat) : Int) / 36524 - ((daysBefore year + day : Nat) : Int) / 146096) / 365 = year := by
    have found := yearOf_eq within from_ until_
    unfold yearOf at found
    omega
  have before : ((daysBefore year + day : Nat) : Int) - (365 * year + year / 4 - year / 100) = day := by
    unfold daysBefore
    omega
  have short : day ≤ 365 := by
    have := daysBefore_succ year
    omega
  obtain ⟨month, hm⟩ : ∃ month, (5 * day + 2) / 153 = month := ⟨_, rfl⟩
  have hm' : (5 * (day : Int) + 2) / 153 = month := by omega
  simp only [ofNumber, he, found, before, hm', fromMarch, hm]
  clear he found before small from_ until_
  by_cases early : month < 10
  · have early' : (month : Int) < 10 := by omega
    have late : ¬ (month : Int) + 3 ≤ 2 := by omega
    simp only [if_pos early, if_pos early', if_neg late, Day.mk.injEq, true_and]
    omega
  · have early' : ¬ (month : Int) < 10 := by omega
    have late : (month : Int) - 9 ≤ 2 := by omega
    simp only [if_neg early, if_neg early', if_pos late, Day.mk.injEq, true_and]
    omega

variable {year day : Nat}

/-- The year that has a 366th day is a leap year of the calendar. -/
theorem isLeap_of_last (era : Int) (within : daysBefore year + day < daysBefore (year + 1)) (last : 365 ≤ day) :
    isLeap (year + era * 400 + 1) = true := by
  have rule : (year + 1) % 4 = 0 ∧ ((year + 1) % 100 ≠ 0 ∨ (year + 1) % 400 = 0) := by
    unfold daysBefore at within
    omega
  have here : (year + era * 400 + 1 : Int) % 4 = 0 ∧
      ((year + era * 400 + 1 : Int) % 100 ≠ 0 ∨ (year + era * 400 + 1 : Int) % 400 = 0) := by omega
  simp only [isLeap, Bool.and_eq_true, Bool.or_eq_true, beq_iff_eq, bne_iff_ne, ne_eq]
  exact here

theorem valid_fromMarch (era : Int) (within : daysBefore year + day < daysBefore (year + 1)) :
    (fromMarch (year + era * 400) day).Valid := by
  have short : day ≤ 365 := by
    have := daysBefore_succ year
    omega
  have leap := isLeap_of_last era within
  obtain ⟨month, hm⟩ : ∃ month, (5 * day + 2) / 153 = month := ⟨_, rfl⟩
  unfold fromMarch
  simp only [hm]
  clear within
  refine ⟨by simp only; split <;> omega, ?_⟩
  obtain rfl | other : month = 11 ∨ month < 11 := by omega
  · simp only [inMonth]
    by_cases h : 365 ≤ day
    · simp [leap h]
      omega
    · simp
      split <;> omega
  · simp only [inMonth]
    split <;> split <;> (try split) <;> omega

theorem number_fromMarch (era : Int) (within : daysBefore year + day < daysBefore (year + 1)) (h : year < 400) :
    number (fromMarch (year + era * 400) day) = era * 146097 + (daysBefore year : Nat) + day - 719468 := by
  have short : day ≤ 365 := by
    have := daysBefore_succ year
    omega
  obtain ⟨month, hm⟩ : ∃ month, (5 * day + 2) / 153 = month := ⟨_, rfl⟩
  unfold number fromMarch
  simp only [hm]
  clear within
  by_cases early : month < 10
  · have late : ¬ month + 3 ≤ 2 := by omega
    have late' : month + 3 > 2 := by omega
    have era_ : (year + era * 400 : Int) / 400 = era := by omega
    have rest : (year + era * 400 : Int) - era * 400 = year := by omega
    simp only [if_pos early, if_neg late, if_pos late', era_, rest, daysBefore]
    omega
  · have late : month - 9 ≤ 2 := by omega
    have late' : ¬ month - 9 > 2 := by omega
    have same : (year + era * 400 + 1 - 1 : Int) = year + era * 400 := by omega
    have era_ : (year + era * 400 : Int) / 400 = era := by omega
    have rest : (year + era * 400 : Int) - era * 400 = year := by omega
    simp only [if_neg early, if_pos late, if_neg late', same, era_, rest, daysBefore]
    omega

theorem number_ofNumber (n : Int) : number (ofNumber n) = n ∧ (ofNumber n).Valid := by
  obtain ⟨era, year, day, within, inYear, count, found⟩ := ofNumber_eq n
  rw [found, number_fromMarch era inYear within]
  exact ⟨by omega, valid_fromMarch era inYear⟩

end Day

namespace Text

variable {width n : Nat} {ds : List Char}

theorem padded_succ (width n : Nat) : padded (width + 1) n = padded width (n / 10) ++ [Nat.digitChar (n % 10)] := by
  have place (k : Nat) : n / Nat.pow 10 (k + 1) = n / 10 / Nat.pow 10 k := by
    rw [Nat.div_div_eq_div_mul]
    congr 1
    exact Nat.pow_succ'
  have unit : n / Nat.pow 10 0 = n := Nat.div_one n
  rw [padded, List.range_succ_eq_map, List.reverse_cons, List.map_append, ← List.map_reverse, List.map_map, padded]
  congr 1
  · refine List.map_congr_left fun k _ => ?_
    simp only [Function.comp, Nat.succ_eq_add_one, place]
  · simp only [List.map_cons, List.map_nil, unit]

theorem length_padded (width n : Nat) : (padded width n).length = width := by simp [padded]

theorem digitsValue_padded (h : n < Nat.pow 10 width) : digitsValue (padded width n) = n := by
  induction width generalizing n with
  | zero =>
    have none : n = 0 := by simpa using h
    rw [none]
    rfl
  | succ width ih =>
    have tens : n / 10 < Nat.pow 10 width := by
      have split : Nat.pow 10 (width + 1) = 10 * Nat.pow 10 width := Nat.pow_succ'
      omega
    rw [padded_succ, digitsValue_append, ih tens, digitValue, Nat.toNat_digitChar_sub_48_of_lt_ten (by omega)]
    omega

theorem digitsValue_zeros (ds : List Char) (k : Nat) :
    digitsValue (ds ++ List.replicate k '0') = digitsValue ds * Nat.pow 10 k := by
  induction k with
  | zero => simp
  | succ k ih =>
    have split : Nat.pow 10 (k + 1) = Nat.pow 10 k * 10 := rfl
    have zero : digitValue '0' = 0 := rfl
    rw [List.replicate_succ', ← List.append_assoc, digitsValue_append, ih, split, zero, Nat.add_zero, Nat.mul_assoc]

def stripped (ds : List Char) : List Char := (ds.reverse.dropWhile (· == '0')).reverse

theorem stripped_zeros (ds : List Char) : ∃ k, ds = stripped ds ++ List.replicate k '0' := by
  refine ⟨(ds.reverse.takeWhile (· == '0')).length, ?_⟩
  have zeros : ds.reverse.takeWhile (· == '0') = List.replicate (ds.reverse.takeWhile (· == '0')).length '0' := by
    refine List.eq_replicate_iff.2 ⟨rfl, fun c hc => ?_⟩
    simpa using List.mem_takeWhile_imp hc
  have whole := congrArg List.reverse (List.takeWhile_append_dropWhile (p := (· == '0')) (l := ds.reverse))
  rw [List.reverse_append, List.reverse_reverse, zeros, List.reverse_replicate] at whole
  exact whole.symm

end Text

namespace Stamp

variable {width n nanos : Nat} {rest : List Char}

theorem takeDigits_padded (h : n < Nat.pow 10 width) (rest : List Char) :
    takeDigits width (Text.padded width n ++ rest) = some (n, rest) := by
  have front : (Text.padded width n ++ rest).take width = Text.padded width n := List.take_left' (Text.length_padded _ _)
  have back : (Text.padded width n ++ rest).drop width = rest := List.drop_left' (Text.length_padded _ _)
  have digits : (Text.padded width n).all Text.isDigit = true :=
    List.all_eq_true.2 fun c hc => Text.isDigit_of_mem_padded hc
  rw [takeDigits, front, back, if_pos ⟨Text.length_padded _ _, digits⟩, Text.digitsValue_padded h]

theorem takeChar_cons (c : Char) (rest : List Char) : takeChar c (c :: rest) = some rest := if_pos rfl

theorem takeFraction_text (h : nanos < 1000000000) (hr : ∀ c ∈ rest.head?, Text.isDigit c = false ∧ c ≠ '.') :
    takeFraction (fractionText nanos ++ rest) = some (nanos, rest) := by
  unfold fractionText
  split
  · rename_i none
    rw [none, List.nil_append]
    cases rest with
    | nil => rfl
    | cons c rest =>
      unfold takeFraction
      split
      · rename_i same
        exact absurd (List.cons.inj same).1 (hr c rfl).2
      · rfl
  · rename_i parts
    change takeFraction ('.' :: Text.stripped (Text.padded 9 nanos) ++ rest) = _
    obtain ⟨k, hk⟩ := Text.stripped_zeros (Text.padded 9 nanos)
    have value : Text.digitsValue (Text.padded 9 nanos) = nanos := Text.digitsValue_padded h
    have length := congrArg List.length hk
    rw [Text.length_padded, List.length_append, List.length_replicate] at length
    rw [hk, Text.digitsValue_zeros] at value
    generalize Text.stripped (Text.padded 9 nanos) = ds at *
    have digits : ∀ c ∈ ds, Text.isDigit c = true := fun c hc =>
      Text.isDigit_of_mem_padded (hk ▸ List.mem_append_left _ hc)
    have stops : ∀ c ∈ rest.head?, Text.isDigit c = false := fun c hc => (hr c hc).1
    have front := Text.takeWhile_digits digits stops
    have back := Text.dropWhile_digits digits stops
    have nonempty : ds ≠ [] := by
      rintro rfl
      apply parts
      rw [← value]
      simp [Text.digitsValue]
    have whole : fractionNanos ds = nanos := by
      rw [fractionNanos, List.take_of_length_le (by omega)]
      rw [show 9 - ds.length = k by omega]
      exact value
    rw [List.cons_append, takeFraction, front, back, whole]
    simp [nonempty]

/-- A text is read part by part, if no part is out of range. -/
theorem parse_of_parts {year month day hour minute second nanos : Nat} {offset : Int}
    {s s₁ s₂ s₃ s₄ s₅ s₆ s₇ s₈ s₉ s₁₀ s₁₁ s₁₂ : List Char} (hyear : takeDigits 4 s = some (year, s₁))
    (h₁ : takeChar '-' s₁ = some s₂) (hmonth : takeDigits 2 s₂ = some (month, s₃)) (h₃ : takeChar '-' s₃ = some s₄)
    (hday : takeDigits 2 s₄ = some (day, s₅)) (h₅ : s₅ = 'T' :: s₆) (hhour : takeDigits 2 s₆ = some (hour, s₇))
    (h₇ : takeChar ':' s₇ = some s₈) (hminute : takeDigits 2 s₈ = some (minute, s₉)) (h₉ : takeChar ':' s₉ = some s₁₀)
    (hsecond : takeDigits 2 s₁₀ = some (second, s₁₁)) (hnanos : takeFraction s₁₁ = some (nanos, s₁₂))
    (hoffset : takeOffset s₁₂ = some offset)
    (dated : 1 ≤ month ∧ month ≤ 12 ∧ 1 ≤ day ∧ day ≤ Day.inMonth year month)
    (timed : hour ≤ 23 ∧ minute ≤ 59 ∧ second ≤ 59) :
    parse s = some ⟨Day.number ⟨year, month, day⟩ * perDay + (hour * 3600 + minute * 60 + second : Nat) - offset * 60,
      nanos, offset⟩ := by
  subst h₅
  have leap : (second == 60) = false := by
    rw [beq_eq_false_iff_ne]
    omega
  refine Option.bind_eq_some_iff.2 ⟨_, hyear, ?_⟩
  refine Option.bind_eq_some_iff.2 ⟨_, h₁, ?_⟩
  refine Option.bind_eq_some_iff.2 ⟨_, hmonth, ?_⟩
  refine Option.bind_eq_some_iff.2 ⟨_, h₃, ?_⟩
  refine Option.bind_eq_some_iff.2 ⟨_, hday, ?_⟩
  refine Option.bind_eq_some_iff.2 ⟨('T', s₆), rfl, ?_⟩
  refine Option.bind_eq_some_iff.2 ⟨_, hhour, ?_⟩
  refine Option.bind_eq_some_iff.2 ⟨_, h₇, ?_⟩
  refine Option.bind_eq_some_iff.2 ⟨_, hminute, ?_⟩
  refine Option.bind_eq_some_iff.2 ⟨_, h₉, ?_⟩
  refine Option.bind_eq_some_iff.2 ⟨_, hsecond, ?_⟩
  refine Option.bind_eq_some_iff.2 ⟨_, hnanos, ?_⟩
  refine Option.bind_eq_some_iff.2 ⟨_, hoffset, ?_⟩
  rw [leap]
  refine Option.bind_eq_some_iff.2 ⟨(), rfl, ?_⟩
  refine Option.bind_eq_some_iff.2 ⟨(), if_pos dated, ?_⟩
  refine Option.bind_eq_some_iff.2 ⟨(), if_pos timed, ?_⟩
  rfl

structure Plain (t : Stamp) : Prop where
  utc : t.offset = 0
  nanos : t.nanos < 1000000000
  year : 0 ≤ (Day.ofNumber (t.seconds / perDay)).year ∧ (Day.ofNumber (t.seconds / perDay)).year ≤ 9999

theorem seconds_of_day (seconds : Int) {clock : Nat} (h : (seconds % perDay).toNat = clock) :
    clock < 86400 ∧ seconds / perDay * perDay +
      (clock / 3600 * 3600 + clock % 3600 / 60 * 60 + clock % 60 : Nat) - 0 * 60 = seconds := by
  have whole := Int.mul_ediv_add_emod seconds perDay
  have low : 0 ≤ seconds % perDay := Int.emod_nonneg _ (by decide)
  have high : seconds % perDay < 86400 := Int.emod_lt_of_pos _ (by decide)
  rw [Int.mul_comm] at whole
  omega

theorem parse_write {t : Stamp} (h : t.Plain) : ∃ s, t.write = some s ∧ parse s = some t := by
  obtain ⟨count, valid⟩ := Day.number_ofNumber (t.seconds / perDay)
  obtain ⟨low, high⟩ := h.year
  have here : t.seconds + t.offset * 60 = t.seconds := by rw [h.utc]; omega
  generalize clock_eq : (t.seconds % perDay).toNat = clock
  generalize date : Day.ofNumber (t.seconds / perDay) = d at *
  obtain ⟨clock_lt, seconds⟩ := seconds_of_day t.seconds clock_eq
  obtain ⟨y, hy⟩ : ∃ y : Nat, d.year = y := ⟨d.year.toNat, by omega⟩
  have dated : 1 ≤ d.month ∧ d.month ≤ 12 ∧ 1 ≤ d.day ∧ d.day ≤ Day.inMonth y d.month :=
    ⟨valid.month.1, valid.month.2, valid.day.1, hy ▸ valid.day.2⟩
  have timed : clock / 3600 ≤ 23 ∧ clock % 3600 / 60 ≤ 59 ∧ clock % 60 ≤ 59 := by omega
  have short : Day.inMonth y d.month ≤ 31 := by
    unfold Day.inMonth
    split <;> split <;> omega
  have two {n : Nat} (small : n < 100) (rest : List Char) : takeDigits 2 (Text.padded 2 n ++ rest) = some (n, rest) :=
    takeDigits_padded small rest
  have fraction : takeFraction (fractionText t.nanos ++ ['Z']) = some (t.nanos, ['Z']) :=
    takeFraction_text h.nanos (by simp; decide)
  have zulu : offsetText t.offset = ['Z'] := if_pos h.utc
  have text : t.write = some (Text.padded 4 y ++ ('-' :: (Text.padded 2 d.month ++ ('-' :: (Text.padded 2 d.day ++
      ('T' :: (Text.padded 2 (clock / 3600) ++ (':' :: (Text.padded 2 (clock % 3600 / 60) ++ (':' ::
        (Text.padded 2 (clock % 60) ++ (fractionText t.nanos ++ ['Z'])))))))))))) := by
    simp only [write, here, date, clock_eq, zulu, hy]
    rw [if_pos ⟨by omega, by omega⟩]
    simp only [List.append_assoc, List.cons_append, Int.toNat_natCast]
  refine ⟨_, text, ?_⟩
  rw [parse_of_parts (takeDigits_padded (show y < Nat.pow 10 4 by show y < 10000; omega) _) (takeChar_cons '-' _)
    (two (by omega) _) (takeChar_cons '-' _) (two (by omega) _) rfl (two (by omega) _) (takeChar_cons ':' _)
    (two (by omega) _) (takeChar_cons ':' _) (two (by omega) _) fraction rfl dated timed, ← hy]
  have same : d.number = t.seconds / perDay := count
  rw [same, seconds, ← h.utc]

end Stamp

end LedgerLoad
