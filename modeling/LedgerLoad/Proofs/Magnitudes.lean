import LedgerLoad.Monitor
import Mathlib

/-!
Doubles that are no less than zero: amounts of memory are such doubles, and the larger of two of them is the larger.

Bits, unpacked doubles and doubles proper are the three layers here. Order and sign are decided on unpacked doubles; packing
and unpacking again may round, but keeps the sign and never leaves the numbers.
-/

set_option autoImplicit false

namespace LedgerLoad

open Float.Model (UnpackedFloat Format)
open Float.Model.UnpackedFloat

def Unsigned : UnpackedFloat → Prop
  | .zero s | .infinity s | .finite s _ _ _ => s = .positive
  | .notANumber => False

def Magnitude (x : Float) : Prop := Unsigned x.toModel.unpack

variable {f : Format} {u v : UnpackedFloat} {x y z : Float}

/-! ### Packing keeps the sign -/

theorem unsigned_unpack_iff {b : BitVec f.numBits} :
    Unsigned (unpack f b) ↔ unpackSign b = 0#1 ∧ (unpackExponent b = -1#_ → unpackMantissa b = 0#_) := by
  have plain : Sign.ofBitVec (unpackSign b) = .positive ↔ unpackSign b = 0#1 := by
    unfold Sign.ofBitVec
    split <;> simp_all
  unfold unpack
  dsimp only
  split
  · rename_i top
    split
    · rename_i bare
      simp only [Unsigned, plain, top, bare, forall_const, and_true]
    · rename_i payload
      simp only [Unsigned, top, payload, forall_const, and_false]
  · rename_i low
    split
    · split <;> simp only [Unsigned, plain, low, false_imp_iff, and_true]
    · simp only [Unsigned, plain, low, false_imp_iff, and_true]

theorem ofNat_ne_top {n : ℕ} (h : n + 1 < 2 ^ f.exponentBits) : BitVec.ofNat f.exponentBits n ≠ -1#_ := by
  rw [BitVec.neg_one_eq_allOnes, Ne, ← BitVec.toNat_inj, BitVec.toNat_ofNat, BitVec.toNat_allOnes,
    Nat.mod_eq_of_lt (by omega)]
  omega

theorem unsigned_unpack_pack (h : Unsigned u) : Unsigned (unpack f (pack f u)) := by
  have positive : Sign.positive.toBitVec = 0#1 := rfl
  rw [unsigned_unpack_iff]
  fun_cases pack with
  | case1 => exact h.elim
  | case2 s =>
    subst h
    exact ⟨(unpackSign_packComponents _ _ _).trans positive, fun _ => unpackMantissa_packComponents⟩
  | case3 s =>
    subst h
    exact ⟨(unpackSign_packComponents _ _ _).trans positive, fun _ => unpackMantissa_packComponents⟩
  | case4 s m e hm exponent overflows =>
    subst h
    exact ⟨(unpackSign_packComponents _ _ _).trans positive, fun _ => unpackMantissa_packComponents⟩
  | case5 s m e hm bits exponent fits =>
    subst h
    have low := ofNat_ne_top (f := f) (n := exponent) (by omega)
    refine ⟨(unpackSign_packComponents _ _ _).trans positive, fun top => (low ?_).elim⟩
    exact unpackExponent_packComponents.symm.trans top
  | case6 s m e hm bits exponent fits =>
    subst h
    have pow : 2 ^ 1 ≤ 2 ^ f.exponentBits := Nat.pow_le_pow_right (by decide) f.he
    have low := ofNat_ne_top (f := f) (n := 0) (by omega)
    refine ⟨(unpackSign_packComponents _ _ _).trans positive, fun top => (low ?_).elim⟩
    exact unpackExponent_packComponents.symm.trans top

/-! ### The order -/

/-- What such doubles are ordered by: zero first, then the exponent before the mantissa, infinity last. -/
def key : UnpackedFloat → ℕ ×ₗ ℤ ×ₗ ℕ
  | .zero _ => toLex (0, toLex (0, 0))
  | .finite _ m e _ => toLex (1, toLex (e, m))
  | .infinity _ | .notANumber => toLex (2, toLex (0, 0))

theorem key_lt_finite {s t : Sign} {m n : ℕ} {d e : ℤ} {hm : 0 < m} {hn : 0 < n} :
    key (.finite s m d hm) < key (.finite t n e hn) ↔ (compare d e).then (compare m n) = .lt := by
  rw [Ordering.then_eq_lt, Int.compare_eq_lt, Int.compare_eq_eq, Nat.compare_eq_lt]
  simp only [key, Prod.Lex.toLex_lt_toLex, Nat.lt_irrefl, false_or, true_and]

theorem key_le_finite {s t : Sign} {m n : ℕ} {d e : ℤ} {hm : 0 < m} {hn : 0 < n} :
    key (.finite s m d hm) ≤ key (.finite t n e hn) ↔ ((compare d e).then (compare m n)).isLE = true := by
  rw [Ordering.isLE_then_iff_or, Int.compare_eq_lt, Int.compare_eq_eq, Nat.isLE_compare]
  simp only [key, Prod.Lex.toLex_le_toLex, Nat.lt_irrefl, false_or, true_and]

theorem le_iff_key (hu : Unsigned u) (hv : Unsigned v) : u.le v = true ↔ key u ≤ key v := by
  cases u <;> cases v <;> first | exact hu.elim | exact hv.elim | skip
  all_goals subst hu hv
  case finite.finite => exact key_le_finite.symm
  case infinity.infinity => exact iff_of_true rfl le_rfl
  all_goals simp [UnpackedFloat.le, UnpackedFloat.compare, key, Prod.Lex.toLex_le_toLex]

theorem lt_iff_key (hu : Unsigned u) (hv : Unsigned v) : u.lt v = true ↔ key u < key v := by
  cases u <;> cases v <;> first | exact hu.elim | exact hv.elim | skip
  all_goals subst hu hv
  case finite.finite =>
    rw [key_lt_finite]
    simp [UnpackedFloat.lt, UnpackedFloat.compare]
  all_goals simp [UnpackedFloat.lt, UnpackedFloat.compare, key, Prod.Lex.toLex_lt_toLex]

namespace Magnitude

theorem le_iff (hx : Magnitude x) (hy : Magnitude y) : x ≤ y ↔ key x.toModel.unpack ≤ key y.toModel.unpack := by
  rw [← le_iff_key hx hy]
  change decide (x.toModel ≤ y.toModel) = true ↔ _
  rw [decide_eq_true_iff]
  rfl

theorem lt_iff (hx : Magnitude x) (hy : Magnitude y) : x < y ↔ key x.toModel.unpack < key y.toModel.unpack := by
  rw [← lt_iff_key hx hy]
  change decide (x.toModel < y.toModel) = true ↔ _
  rw [decide_eq_true_iff]
  rfl

theorem refl (hx : Magnitude x) : x ≤ x := (hx.le_iff hx).2 le_rfl

theorem trans (hx : Magnitude x) (hy : Magnitude y) (hz : Magnitude z) (hxy : x ≤ y) (hyz : y ≤ z) : x ≤ z :=
  (hx.le_iff hz).2 (le_trans ((hx.le_iff hy).1 hxy) ((hy.le_iff hz).1 hyz))

theorem isNaN (hx : Magnitude x) : x.isNaN = false := by
  change x.toModel.unpack.isNaN = false
  unfold Magnitude at hx
  cases h : x.toModel.unpack with
  | notANumber =>
    rw [h] at hx
    exact hx.elim
  | zero s | finite s m e hm | infinity s => rfl

theorem larger_eq (hx : Magnitude x) (hy : Magnitude y) : Readings.larger x y = if x < y then y else x := by
  rw [Readings.larger, hx.isNaN, hy.isNaN, if_neg (by decide), if_neg (by decide)]

theorem larger (hx : Magnitude x) (hy : Magnitude y) :
    (Readings.larger x y = x ∨ Readings.larger x y = y) ∧ x ≤ Readings.larger x y ∧ y ≤ Readings.larger x y := by
  rw [hx.larger_eq hy]
  split
  · rename_i less
    rw [hx.lt_iff hy] at less
    exact ⟨.inr rfl, (hx.le_iff hy).2 (le_of_lt less), hy.refl⟩
  · rename_i notLess
    rw [hx.lt_iff hy, not_lt] at notLess
    exact ⟨.inl rfl, hx.refl, (hy.le_iff hx).2 notLess⟩

end Magnitude

/-! ### Zero is the least -/

theorem unpack_zero : (0 : Float).toModel.unpack = .zero .positive := rfl

theorem magnitude_zero : Magnitude 0 := rfl

theorem Magnitude.eq_zero (hx : Magnitude x) (h : ¬ 0 < x) : x = 0 := by
  rw [magnitude_zero.lt_iff hx, unpack_zero] at h
  have nothing : x.toModel.unpack = .zero .positive := by
    unfold Magnitude at hx
    cases hu : x.toModel.unpack with
    | zero s =>
      rw [hu] at hx
      exact congrArg _ hx
    | finite s m e hm | infinity s | notANumber => simp [hu, key, Prod.Lex.toLex_lt_toLex] at h
  have bits := (unpack_inj_of_valid x.toModel.valid (0 : Float).toModel.valid).1 nothing
  exact Float.toBits_inj.1 (UInt64.toBitVec_inj.1 bits)

theorem larger_zero (hx : Magnitude x) : Readings.larger 0 x = x := by
  rw [magnitude_zero.larger_eq hx]
  split
  · rfl
  · rename_i notLess
    exact (hx.eq_zero notLess).symm

/-! ### The largest of several -/

theorem foldl_larger {xs : List Float} (hx : Magnitude x) (hxs : ∀ y ∈ xs, Magnitude y) :
    Magnitude (xs.foldl Readings.larger x) ∧ xs.foldl Readings.larger x ∈ x :: xs ∧
      ∀ y ∈ x :: xs, y ≤ xs.foldl Readings.larger x := by
  induction xs generalizing x with
  | nil =>
    refine ⟨hx, List.mem_singleton_self x, fun y hy => ?_⟩
    rw [List.mem_singleton.1 hy]
    exact hx.refl
  | cons y ys ih =>
    have hy : Magnitude y := hxs y List.mem_cons_self
    obtain ⟨one, left, right⟩ := hx.larger hy
    have next : Magnitude (Readings.larger x y) := by
      rcases one with h | h <;> rw [h] <;> assumption
    obtain ⟨largest, among, above⟩ := ih next fun z hz => hxs z (List.mem_cons_of_mem y hz)
    have first := above _ List.mem_cons_self
    refine ⟨largest, ?_, fun z hz => ?_⟩
    · rcases List.mem_cons.1 among with h | h
      · rw [List.foldl_cons, h]
        rcases one with h | h <;> simp [h]
      · exact List.mem_cons_of_mem x (List.mem_cons_of_mem y h)
    · rcases List.mem_cons.1 hz with rfl | hz
      · exact hx.trans next largest left first
      · rcases List.mem_cons.1 hz with rfl | hz
        · exact hy.trans next largest right first
        · exact above z (List.mem_cons_of_mem _ hz)

/-- The larger of all and zero is the largest of them, if there are any. -/
theorem largest_of_magnitudes {xs : List Float} (hxs : ∀ y ∈ xs, Magnitude y) (filled : xs ≠ []) :
    xs.foldl Readings.larger 0 ∈ xs ∧ ∀ y ∈ xs, y ≤ xs.foldl Readings.larger 0 := by
  cases xs with
  | nil => exact (filled rfl).elim
  | cons y ys =>
    have hy : Magnitude y := hxs y List.mem_cons_self
    rw [List.foldl_cons, larger_zero hy]
    exact (foldl_larger hy fun z hz => hxs z (List.mem_cons_of_mem y hz)).2

/-! ### Amounts of memory -/

theorem unsigned_roundWithAccuracy {m : ℕ} {e : ℤ} {a : Accuracy} : Unsigned (roundWithAccuracy f .positive m e a) := by
  unfold roundWithAccuracy
  dsimp only
  split <;> rfl

theorem unsigned_ofNat {n : ℕ} : Unsigned (ofNat f n) := by
  unfold ofNat ofInt UnpackedFloat.normalize
  split
  · rename_i negative
    rw [Int.compare_eq_lt] at negative
    omega
  · rfl
  · exact unsigned_roundWithAccuracy

theorem unsigned_div {m : ℕ} {e : ℤ} {hm : 0 < m} (hu : Unsigned u) : Unsigned (div f u (.finite .positive m e hm)) := by
  cases u with
  | notANumber => exact hu
  | zero s | infinity s =>
    subst hu
    rfl
  | finite s n d hn =>
    subst hu
    exact unsigned_roundWithAccuracy

theorem unpack_bytesPerMb : Readings.bytesPerMb.toModel.unpack = .finite .positive (2 ^ 52) (-32) (by decide) := rfl

theorem unpack_div :
    (x / y).toModel.unpack =
      unpack Format.binary64 (pack Format.binary64 (div Format.binary64 x.toModel.unpack y.toModel.unpack)) := rfl

theorem magnitude_toFloat (n : UInt64) : Magnitude n.toFloat :=
  unsigned_unpack_pack (f := Format.binary64) (u := ofNat Format.binary64 n.toNat) unsigned_ofNat

theorem magnitude_megabytes (n : UInt64) : Magnitude (n.toFloat / Readings.bytesPerMb) := by
  unfold Magnitude
  rw [unpack_div, unpack_bytesPerMb]
  exact unsigned_unpack_pack (unsigned_div (magnitude_toFloat n))

end LedgerLoad
