import LedgerLoad.Proofs.Magnitudes
import Mathlib

/-!
Doubles that stand for whole numbers, and what is left of a double that is cut to an index.

A whole number below 2^53 is a double without loss, and so is a product that stays below. A quotient is rounded, but so far
behind the point that cutting it gives the quotient of the whole numbers.
-/

set_option autoImplicit false

namespace LedgerLoad

open Float.Model (UnpackedFloat Format totalExponent)
open Float.Model.UnpackedFloat

variable {a b d k m n r : ℕ} {e : ℤ} {s : Sign} {x y : Float}

/-! ### Packing -/

theorem toNat_ofNat_exponent {biased : ℕ} (h : biased < 2047) : (BitVec.ofNat 11 biased).toNat = biased := by
  rw [BitVec.toNat_ofNat]
  exact Nat.mod_eq_of_lt (by norm_num; omega)

theorem toNat_implicit (low : 2 ^ 52 ≤ m) (high : m < 2 ^ 53) : (1#1 ++ BitVec.ofNat 52 m).toNat = m := by
  rw [BitVec.toNat_append, ← Nat.shiftLeft_add_eq_or_of_lt (BitVec.isLt _), BitVec.toNat_ofNat, BitVec.toNat_ofNat]
  norm_num [Nat.shiftLeft_eq]
  omega

theorem unpack_pack_full (h : 0 < m) (low : 2 ^ 52 ≤ m) (high : m < 2 ^ 53) (least : -1074 ≤ e) (most : e < 972) :
    unpack Format.binary64 (pack Format.binary64 (.finite s m e h)) = .finite s m e h := by
  have places : m.log2 = 52 := (Nat.log2_eq_iff h.ne').2 ⟨low, high⟩
  obtain ⟨biased, hb⟩ : ∃ biased : ℕ, (biased : ℤ) = e + 1075 := ⟨(e + 1075).toNat, by omega⟩
  have exponent : (e + (Format.binary64.exponentBias : ℕ) + (52 : ℕ)).toNat = biased := by
    change (e + 1023 + 52).toNat = biased
    omega
  have packed : pack Format.binary64 (.finite s m e h) =
      packComponents Format.binary64 s (BitVec.ofNat 11 biased) (BitVec.ofNat 52 m) := by
    unfold pack
    simp only [exponent, places]
    rw [if_neg (by norm_num; omega), if_pos (by rfl)]
  have kept : (BitVec.ofNat 11 biased).toNat = biased := toNat_ofNat_exponent (by omega)
  have nonzero : BitVec.ofNat 11 biased ≠ 0#11 := by
    intro hz
    rw [hz] at kept
    change 0 = biased at kept
    omega
  have finite : BitVec.ofNat 11 biased ≠ -1#11 := by
    intro hz
    rw [hz] at kept
    change 2047 = biased at kept
    omega
  rw [packed]
  unfold unpack
  simp only [unpackMantissa_packComponents, unpackExponent_packComponents, unpackSign_packComponents]
  rw [if_neg finite, if_neg nonzero]
  simp only [toNat_implicit low high, kept, Sign.ofBitVec_toBitVec, UnpackedFloat.finite.injEq, true_and]
  change (biased : ℤ) - (1023 + 52) = e
  omega

/-! ### Rounding -/

theorem log2_shiftLeft (h : 0 < n) (k : ℕ) : (n <<< k).log2 = n.log2 + k := by
  have pos : n <<< k ≠ 0 := (Nat.shiftLeft_pos_iff.2 h).ne'
  obtain ⟨low, high⟩ := (Nat.log2_eq_iff h.ne').1 rfl
  have two : 0 < 2 ^ k := Nat.two_pow_pos k
  rw [Nat.log2_eq_iff pos, Nat.shiftLeft_eq, pow_add, show n.log2 + k + 1 = n.log2 + 1 + k by omega, pow_add _ _ k]
  exact ⟨Nat.mul_le_mul_right _ low, Nat.mul_lt_mul_of_pos_right high two⟩

theorem mantissa_ofMantissaAndAccuracy (m : ℕ) (acc : Accuracy) :
    (ExtendedMantissa.ofMantissaAndAccuracy m acc).mantissa = m := by
  unfold ExtendedMantissa.ofMantissaAndAccuracy
  split <;> rfl

theorem mantissa_shiftRight (em : ExtendedMantissa) (k : ℕ) : (em >>> k).mantissa = em.mantissa / 2 ^ k := by
  change (k.repeat ExtendedMantissa.shiftRightOne em).mantissa = _
  induction k with
  | zero => simp [Nat.repeat]
  | succ k ih =>
    change (k.repeat ExtendedMantissa.shiftRightOne em).mantissa / 2 = _
    rw [ih, Nat.div_div_eq_div_mul, pow_succ]

theorem shiftRight_shiftLeft (m k : ℕ) :
    ExtendedMantissa.ofMantissaAndAccuracy (m <<< k) .exact >>> k = ExtendedMantissa.ofMantissaAndAccuracy m .exact := by
  change k.repeat ExtendedMantissa.shiftRightOne _ = _
  induction k generalizing m with
  | zero => rfl
  | succ k ih =>
    have twice : m <<< (k + 1) = (m <<< 1) <<< k := by rw [← Nat.shiftLeft_add, Nat.add_comm]
    have back : m <<< 1 / 2 = m := by rw [Nat.shiftLeft_eq]; omega
    have even : m <<< 1 % 2 = 0 := by rw [Nat.shiftLeft_eq]; omega
    change ExtendedMantissa.shiftRightOne (k.repeat ExtendedMantissa.shiftRightOne _) = _
    rw [twice, ih]
    simp [ExtendedMantissa.shiftRightOne, ExtendedMantissa.ofMantissaAndAccuracy, back, even]

theorem roundedMantissa_cases (em : ExtendedMantissa) :
    em.roundedMantissa = em.mantissa ∨ em.roundedMantissa = em.mantissa + 1 := by
  obtain ⟨m, _ | _, _ | _⟩ := em <;>
    simp only [ExtendedMantissa.roundedMantissa, ExtendedMantissa.accuracy, Accuracy.roundToNearestEven, true_or, or_true]
  omega

theorem roundedMantissa_shiftRight (m k : ℕ) (acc : Accuracy) :
    (ExtendedMantissa.ofMantissaAndAccuracy m acc >>> k).roundedMantissa = m / 2 ^ k ∨
      (ExtendedMantissa.ofMantissaAndAccuracy m acc >>> k).roundedMantissa = m / 2 ^ k + 1 := by
  have cases := roundedMantissa_cases (ExtendedMantissa.ofMantissaAndAccuracy m acc >>> k)
  rwa [mantissa_shiftRight, mantissa_ofMantissaAndAccuracy] at cases

theorem targetExponent_full (low : 2 ^ 52 ≤ m) (least : -1074 ≤ e) :
    Format.binary64.targetExponent (totalExponent m e) = e + (m.log2 - 52 : ℕ) := by
  have places : 52 ≤ m.log2 := (Nat.le_log2 (by omega)).2 low
  simp only [Format.targetExponent, totalExponent, Format.mantissaBits, Format.minExponent]
  norm_num
  omega

theorem shiftToTargetExponent_full (low : 2 ^ 52 ≤ m) (least : -1074 ≤ e) (acc : Accuracy) :
    shiftToTargetExponent Format.binary64 m e acc =
      (ExtendedMantissa.ofMantissaAndAccuracy m acc >>> (m.log2 - 52), e + (m.log2 - 52 : ℕ)) := by
  have amount : (e + (m.log2 - 52 : ℕ) - e).toNat = m.log2 - 52 := by omega
  simp only [shiftToTargetExponent, targetExponent_full low least, shiftToExponent, amount]

/-- A rounded mantissa may have one place too many, which goes into the exponent. -/
theorem shiftToTargetExponent_carry (low : 2 ^ 52 ≤ r) (high : r ≤ 2 ^ 53) (least : -1074 ≤ e) :
    let shifted := shiftToTargetExponent Format.binary64 r e .exact
    2 ^ 52 ≤ shifted.1.mantissa ∧ shifted.1.mantissa < 2 ^ 53 ∧
      (r = shifted.1.mantissa ∧ shifted.2 = e ∨ r = 2 * shifted.1.mantissa ∧ shifted.2 = e + 1) := by
  rw [shiftToTargetExponent_full low least]
  dsimp only
  rw [mantissa_shiftRight]
  change 2 ^ 52 ≤ r / _ ∧ r / _ < 2 ^ 53 ∧ (r = r / _ ∧ _ ∨ r = 2 * (r / _) ∧ _)
  rcases Nat.lt_or_eq_of_le high with inside | rfl
  · have places : r.log2 = 52 := (Nat.log2_eq_iff (by omega)).2 ⟨low, inside⟩
    rw [places]
    norm_num
    omega
  · rw [Nat.log2_two_pow]
    norm_num

/-- A mantissa with places to spare is cut to 53 of them and rounded there. -/
theorem roundWithAccuracy_full (low : 2 ^ 52 ≤ m) (least : -1074 ≤ e) (acc : Accuracy) :
    ∃ (M : ℕ) (E : ℤ) (h : 0 < M), roundWithAccuracy Format.binary64 s m e acc = .finite s M E h ∧
      2 ^ 52 ≤ M ∧ M < 2 ^ 53 ∧
      ∃ r, r = (ExtendedMantissa.ofMantissaAndAccuracy m acc >>> (m.log2 - 52)).roundedMantissa ∧
        (r = M ∧ E = e + (m.log2 - 52 : ℕ) ∨ r = 2 * M ∧ E = e + (m.log2 - 52 : ℕ) + 1) := by
  have places : 52 ≤ m.log2 := (Nat.le_log2 (by omega)).2 low
  obtain ⟨below, above⟩ := (Nat.log2_eq_iff (n := m) (by omega)).1 rfl
  have least52 : 2 ^ 52 ≤ m / 2 ^ (m.log2 - 52) := by
    rw [Nat.le_div_iff_mul_le (Nat.two_pow_pos _), ← pow_add]
    rwa [show 52 + (m.log2 - 52) = m.log2 by omega]
  have most53 : m / 2 ^ (m.log2 - 52) < 2 ^ 53 := by
    rw [Nat.div_lt_iff_lt_mul (Nat.two_pow_pos _), ← pow_add]
    rwa [show 53 + (m.log2 - 52) = m.log2 + 1 by omega]
  have rounded := roundedMantissa_shiftRight m (m.log2 - 52) acc
  obtain ⟨full, inside, placed⟩ := shiftToTargetExponent_carry
    (r := (ExtendedMantissa.ofMantissaAndAccuracy m acc >>> (m.log2 - 52)).roundedMantissa)
    (e := e + (m.log2 - 52 : ℕ)) (by omega) (by omega) (by omega)
  have pos := Nat.lt_of_lt_of_le (Nat.two_pow_pos 52) full
  refine ⟨_, _, pos, ?_, full, inside, _, rfl, placed⟩
  unfold roundWithAccuracy
  rw [shiftToTargetExponent_full low least]
  exact dif_neg pos.ne'

/-! ### Whole numbers -/

def wholeDouble (n : ℕ) : UnpackedFloat :=
  if h : 0 < n then .finite .positive (n <<< (52 - n.log2)) (n.log2 - 52) (Nat.shiftLeft_pos_iff.2 h) else .zero .positive

theorem wholeDouble_zero : wholeDouble 0 = .zero .positive := rfl

theorem wholeDouble_pos (h : 0 < n) :
    wholeDouble n = .finite .positive (n <<< (52 - n.log2)) (n.log2 - 52) (Nat.shiftLeft_pos_iff.2 h) := dif_pos h

theorem full_of_whole (h : 0 < n) (fits : n < 2 ^ 53) :
    2 ^ 52 ≤ n <<< (52 - n.log2) ∧ n <<< (52 - n.log2) < 2 ^ 53 := by
  have places : n.log2 < 53 := (Nat.log2_lt h.ne').2 fits
  refine (Nat.log2_eq_iff (Nat.shiftLeft_pos_iff.2 h).ne').1 ?_
  rw [log2_shiftLeft h]
  omega

theorem roundWithAccuracy_whole (h : 0 < n) (fits : n < 2 ^ 53) (enough : 52 ≤ n.log2 + k) (few : k ≤ 1000) :
    roundWithAccuracy Format.binary64 .positive (n <<< k) (-k) .exact = wholeDouble n := by
  obtain ⟨full, inside⟩ := full_of_whole h fits
  have places : (n <<< k).log2 = n.log2 + k := log2_shiftLeft h k
  have low : 2 ^ 52 ≤ n <<< k := by
    rw [← Nat.le_log2 (Nat.shiftLeft_pos_iff.2 h).ne', places]
    exact enough
  obtain ⟨M, E, pos, rounded, least, _, r, hr, placed⟩ :=
    roundWithAccuracy_full (s := .positive) (e := -k) low (by omega) .exact
  have logs : n.log2 < 53 := (Nat.log2_lt h.ne').2 fits
  have zeros : n <<< k = (n <<< (52 - n.log2)) <<< (n.log2 + k - 52) := by
    rw [← Nat.shiftLeft_add]
    congr 1
    omega
  have kept : r = n <<< (52 - n.log2) := by
    rw [hr, places, zeros, shiftRight_shiftLeft]
    rfl
  rw [places] at placed
  rw [rounded, wholeDouble_pos h, UnpackedFloat.finite.injEq]
  refine ⟨rfl, ?_, ?_⟩ <;> omega

theorem unpack_pack_whole (fits : n < 2 ^ 53) :
    unpack Format.binary64 (pack Format.binary64 (wholeDouble n)) = wholeDouble n := by
  unfold wholeDouble
  split
  · rename_i h
    obtain ⟨full, inside⟩ := full_of_whole h fits
    have logs : n.log2 < 53 := (Nat.log2_lt h.ne').2 fits
    exact unpack_pack_full _ full inside (by omega) (by omega)
  · rfl

theorem ofNat_whole (fits : n < 2 ^ 53) : UnpackedFloat.ofNat Format.binary64 n = wholeDouble n := by
  unfold UnpackedFloat.ofNat ofInt UnpackedFloat.normalize
  rcases Nat.eq_zero_or_pos n with rfl | h
  · rfl
  have logs : n.log2 < 53 := (Nat.log2_lt h.ne').2 fits
  have target : Format.binary64.targetExponent (totalExponent n 0) = -(52 - n.log2 : ℕ) := by
    simp only [Format.targetExponent, totalExponent, Format.mantissaBits, Format.minExponent]
    norm_num
    omega
  rw [Int.compare_eq_gt.2 (by omega)]
  simp only [UnpackedFloat.round, Int.toNat_natCast, target, decreaseExponent, zero_sub]
  exact roundWithAccuracy_whole h fits (by omega) (by omega)

theorem toFloat_whole (fits : n < 2 ^ 53) : n.toUInt64.toFloat.toModel.unpack = wholeDouble n := by
  have kept : n.toUInt64.toNat = n := Nat.mod_eq_of_lt (by omega)
  change unpack Format.binary64 (pack Format.binary64 (UnpackedFloat.ofNat Format.binary64 n.toUInt64.toNat)) = _
  rw [kept, ofNat_whole fits, unpack_pack_whole fits]

/-- A product of whole numbers is exact if it is in range. -/
theorem mul_whole (hx : x.toModel.unpack = wholeDouble a) (hy : y.toModel.unpack = wholeDouble b) (fits : a * b < 2 ^ 53)
    (ha : a < 2 ^ 53) (hb : b < 2 ^ 53) : (x * y).toModel.unpack = wholeDouble (a * b) := by
  change unpack Format.binary64 (pack Format.binary64 (mul Format.binary64 x.toModel.unpack y.toModel.unpack)) = _
  have product : mul Format.binary64 (wholeDouble a) (wholeDouble b) = wholeDouble (a * b) := by
    rcases Nat.eq_zero_or_pos a with rfl | posA
    · rw [Nat.zero_mul, wholeDouble_zero]
      unfold wholeDouble
      split <;> rfl
    rcases Nat.eq_zero_or_pos b with rfl | posB
    · rw [Nat.mul_zero, wholeDouble_zero, wholeDouble_pos posA]
      rfl
    have logA : a.log2 < 53 := (Nat.log2_lt posA.ne').2 ha
    have logB : b.log2 < 53 := (Nat.log2_lt posB.ne').2 hb
    have logs : a.log2 + b.log2 ≤ (a * b).log2 := by
      rw [Nat.le_log2 (Nat.mul_pos posA posB).ne', pow_add]
      exact Nat.mul_le_mul (Nat.log2_self_le posA.ne') (Nat.log2_self_le posB.ne')
    have mantissas : a <<< (52 - a.log2) * b <<< (52 - b.log2) = (a * b) <<< (52 - a.log2 + (52 - b.log2)) := by
      simp only [Nat.shiftLeft_eq, pow_add]
      ring
    have exponents : (a.log2 : ℤ) - 52 + (b.log2 - 52) = -(52 - a.log2 + (52 - b.log2) : ℕ) := by omega
    simp only [wholeDouble_pos posA, wholeDouble_pos posB, mul, mantissas, exponents]
    exact roundWithAccuracy_whole (Nat.mul_pos posA posB) fits (by omega) (by omega)
  rw [hx, hy, product, unpack_pack_whole fits]

/-! ### Quotients -/

theorem roundToInt_eq (s : Sign) (m : ℕ) (e : ℤ) :
    roundToInt s m e = s.apply (m * 2 ^ e.toNat / 2 ^ (-e).toNat : ℕ) := by
  have up : (e - 0).toNat = e.toNat := by omega
  have down : (0 - (e - (e.toNat : ℤ))).toNat = (-e).toNat := by omega
  simp only [roundToInt, decreaseExponent, up, shiftToExponent, down, mantissa_shiftRight, mantissa_ofMantissaAndAccuracy,
    Nat.shiftLeft_eq]

/-- What a double stands for as an index: its whole part, nothing if it is negative or no number, and at most the
largest index. -/
def index : UnpackedFloat → ℕ
  | .notANumber | .zero _ | .infinity .negative => 0
  | .infinity .positive => 2 ^ 64 - 1
  | .finite s m e _ => min ⌊(s.apply m : ℚ) * 2 ^ e⌋₊ (2 ^ 64 - 1)

theorem floor_scaled (m : ℕ) (e : ℤ) : ⌊(m : ℚ) * 2 ^ e⌋₊ = m * 2 ^ e.toNat / 2 ^ (-e).toNat := by
  have parts : (2 : ℚ) ^ e = 2 ^ e.toNat / 2 ^ (-e).toNat := by
    rw [← zpow_natCast, ← zpow_natCast, ← zpow_sub₀ (by norm_num)]
    congr 1
    omega
  rw [parts, ← mul_div_assoc, ← Nat.floor_div_eq_div (K := ℚ)]
  push_cast
  rfl

theorem toNat_ofNatClamp (n : ℕ) : (UInt64.ofNatClamp n).toNat = min n (2 ^ 64 - 1) := by
  unfold UInt64.ofNatClamp
  split
  · rename_i fits
    simp only [UInt64.size] at fits
    change n = _
    omega
  · rename_i beyond
    simp only [UInt64.size] at beyond
    change 2 ^ 64 - 1 = _
    omega

/-- A double is cut to the index that it stands for. -/
theorem toUInt64_eq_index (x : Float) : x.toUInt64.toNat = index x.toModel.unpack := by
  change (UInt64.ofNatClamp (toInt 0 (UInt64.size - 1) x.toModel.unpack).toNat).toNat = _
  rw [toNat_ofNatClamp]
  rcases x.toModel.unpack with s | _ | s | ⟨s, m, e, pos⟩
  · cases s <;> rfl
  · rfl
  · rfl
  · simp only [toInt, roundToInt_eq, index, Sign.apply]
    cases s with
    | positive =>
      dsimp only
      rw [Int.toNat_natCast, Int.cast_natCast, floor_scaled]
    | negative =>
      have below : ((-(m : ℤ) : ℤ) : ℚ) * 2 ^ e ≤ 0 := by
        push_cast
        rw [neg_mul, neg_nonpos]
        positivity
      dsimp only
      rw [Nat.floor_of_nonpos below, Int.toNat_neg_natCast]

theorem div_of_scaled {t : ℕ} (hd : 0 < d) (fine : d < t) (hr : r = a * t / d ∨ r = a * t / d + 1) : r / t = a / d := by
  have pos : 0 < t := Nat.lt_trans hd fine
  have low : a / d * t ≤ a * t / d := by
    rw [Nat.le_div_iff_mul_le hd]
    calc a / d * t * d = a / d * d * t := by ring
      _ ≤ a * t := Nat.mul_le_mul_right _ (Nat.div_mul_le_self a d)
  have high : a * t / d + 1 < (a / d + 1) * t := by
    have step : a + 1 ≤ (a / d + 1) * d := by
      rw [Nat.mul_comm]
      exact Nat.lt_mul_div_succ a hd
    have room : (a + 1) * t ≤ (a / d + 1) * d * t := Nat.mul_le_mul_right t step
    have cut : a * t / d * d ≤ a * t := Nat.div_mul_le_self _ d
    refine Nat.lt_of_mul_lt_mul_right (a := d) ?_
    calc (a * t / d + 1) * d = a * t / d * d + d := Nat.succ_mul _ _
      _ < (a + 1) * t := by rw [Nat.succ_mul]; omega
      _ ≤ (a / d + 1) * t * d := by rw [Nat.mul_right_comm]; exact room
  have next : (a / d + 1) * t = a / d * t + t := Nat.succ_mul _ _
  rw [Nat.div_eq_iff pos]
  omega

theorem divCore_full {p q : ℕ} {f : ℤ} (lowP : 2 ^ 52 ≤ p) (highP : p < 2 ^ 53) (lowQ : 2 ^ 52 ≤ q) (highQ : q < 2 ^ 53)
    (least : -1000 ≤ e - f) :
    divCore Format.binary64 p e q f = (p * 2 ^ 53 / q, e - f - 53, accuracyOfFraction (p * 2 ^ 53 % q) q) := by
  have placesP : p.log2 = 52 := (Nat.log2_eq_iff (by omega)).2 ⟨lowP, highP⟩
  have placesQ : q.log2 = 52 := (Nat.log2_eq_iff (by omega)).2 ⟨lowQ, highQ⟩
  have target : min (e - f) (Format.binary64.targetExponent (totalExponent p e - totalExponent q f)) = e - f - 53 := by
    simp only [Format.targetExponent, totalExponent, Format.mantissaBits, Format.minExponent, placesP, placesQ]
    norm_num
    omega
  have amount : (e - f - (e - f - 53)).toNat = 53 := by omega
  simp only [divCore, target, amount, Nat.shiftLeft_eq]

theorem quotient_places {p q : ℕ} (lowP : 2 ^ 52 ≤ p) (highP : p < 2 ^ 53) (lowQ : 2 ^ 52 ≤ q) (highQ : q < 2 ^ 53) :
    2 ^ 52 ≤ p * 2 ^ 53 / q ∧ p * 2 ^ 53 / q < 2 ^ 54 := by
  constructor
  · rw [Nat.le_div_iff_mul_le (by omega)]
    exact Nat.mul_le_mul lowP highQ.le
  · rw [Nat.div_lt_iff_lt_mul (by omega)]
    omega

/-- The quotient of two whole numbers is a fraction over a power of two beyond the divisor, cut or one above. Both
mantissas are scaled to 53 places, and `t` is what that leaves of places behind the point. -/
theorem div_whole (posA : 0 < a) (ha : a < 2 ^ 52) (posD : 0 < d) (hd : d < 2 ^ 53) :
    ∃ (M j r t : ℕ) (pos : 0 < M), div Format.binary64 (wholeDouble a) (wholeDouble d) = .finite .positive M (-j) pos ∧
      2 ^ 52 ≤ M ∧ M < 2 ^ 53 ∧ j ≤ 200 ∧ d < 2 ^ t ∧ (r = a * 2 ^ t / d ∨ r = a * 2 ^ t / d + 1) ∧
      (r = M ∧ t = j ∨ r = 2 * M ∧ t = j + 1) := by
  obtain ⟨lowA, highA⟩ := full_of_whole posA (by omega)
  obtain ⟨lowD, highD⟩ := full_of_whole posD hd
  have logA : a.log2 < 52 := (Nat.log2_lt posA.ne').2 ha
  have logD : d.log2 < 53 := (Nat.log2_lt posD.ne').2 hd
  obtain ⟨lowQ, highQ⟩ := quotient_places lowA highA lowD highD
  have core := divCore_full lowA highA lowD highD (e := a.log2 - 52) (f := d.log2 - 52) (by omega)
  set Q := a <<< (52 - a.log2) * 2 ^ 53 / d <<< (52 - d.log2) with hQ
  have logQ : Q.log2 < 54 := (Nat.log2_lt (by omega)).2 highQ
  have placesQ : 52 ≤ Q.log2 := (Nat.le_log2 (by omega)).2 lowQ
  obtain ⟨M, E, pos, rounded, least, most, r, hr, placed⟩ := roundWithAccuracy_full (s := .positive)
    (e := (a.log2 : ℤ) - 52 - (d.log2 - 52) - 53) lowQ (by omega)
    (accuracyOfFraction (a <<< (52 - a.log2) * 2 ^ 53 % d <<< (52 - d.log2)) (d <<< (52 - d.log2)))
  obtain ⟨t, ht⟩ : ∃ t, t + a.log2 + (Q.log2 - 52) = d.log2 + 53 := ⟨d.log2 + 53 - a.log2 - (Q.log2 - 52), by omega⟩
  have cut : Q / 2 ^ (Q.log2 - 52) = a * 2 ^ t / d := by
    have upper : a <<< (52 - a.log2) * 2 ^ 53 = a * 2 ^ t * 2 ^ (52 - d.log2 + (Q.log2 - 52)) := by
      rw [Nat.shiftLeft_eq, mul_assoc, mul_assoc, ← pow_add, ← pow_add]
      congr 2
      omega
    have lower : d <<< (52 - d.log2) * 2 ^ (Q.log2 - 52) = d * 2 ^ (52 - d.log2 + (Q.log2 - 52)) := by
      rw [Nat.shiftLeft_eq, mul_assoc, ← pow_add]
    rw [hQ, Nat.div_div_eq_div_mul, ← hQ, upper, lower, Nat.mul_div_mul_right _ _ (Nat.two_pow_pos _)]
  have fine : d < 2 ^ t := by
    calc d < 2 ^ (d.log2 + 1) := Nat.lt_log2_self
      _ ≤ 2 ^ t := Nat.pow_le_pow_right (by decide) (by omega)
  have near : r = a * 2 ^ t / d ∨ r = a * 2 ^ t / d + 1 := by
    rw [← cut, hr]
    exact roundedMantissa_shiftRight Q _ _
  obtain ⟨j, hj⟩ : ∃ j : ℕ, E = -j := ⟨(-E).toNat, by omega⟩
  subst hj
  refine ⟨M, j, r, t, pos, ?_, least, most, by omega, fine, near, by omega⟩
  rw [wholeDouble_pos posA, wholeDouble_pos posD]
  simp only [div, core]
  exact rounded

/-- A quotient of whole numbers, cut to a whole number, is their quotient as whole numbers. -/
theorem toUInt64_div_whole (hx : x.toModel.unpack = wholeDouble a) (hy : y.toModel.unpack = wholeDouble d)
    (ha : a < 2 ^ 52) (posD : 0 < d) (hd : d < 2 ^ 53) : (x / y).toUInt64.toNat = a / d := by
  rw [toUInt64_eq_index, unpack_div, hx, hy]
  rcases Nat.eq_zero_or_pos a with rfl | posA
  · rw [wholeDouble_zero, wholeDouble_pos posD, Nat.zero_div]
    simp only [div]
    rfl
  obtain ⟨M, j, r, t, pos, quotient, least, most, small, fine, near, placed⟩ := div_whole posA ha posD hd
  have whole : M / 2 ^ j = a / d := by
    rw [← div_of_scaled posD fine near]
    rcases placed with ⟨rfl, rfl⟩ | ⟨rfl, rfl⟩
    · rfl
    · rw [pow_succ', Nat.mul_div_mul_left _ _ (by decide)]
  have small := Nat.div_le_self a d
  rw [quotient, unpack_pack_full pos least most (by omega) (by omega)]
  simp only [index, Sign.apply, Int.cast_natCast, floor_scaled, neg_neg, Int.toNat_neg_natCast, Int.toNat_natCast, pow_zero,
    mul_one, whole]
  omega

end LedgerLoad
