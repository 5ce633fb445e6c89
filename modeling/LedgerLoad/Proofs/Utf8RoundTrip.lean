import Mathlib.Data.List.Basic
import LedgerLoad.Proofs.EventChunks

/-!
Text that was encoded as UTF-8 is decoded to itself, by the reader that stops at a fault and by the one that replaces it. The
bytes of a string are those of its characters.
-/

set_option autoImplicit false

namespace LedgerLoad.Text.Utf8

theorem toNat_tail (n : Nat) : (UInt8.ofNat (n % 64 + 128)).toNat = n % 64 + 128 := by
  rw [UInt8.toNat_ofNat']
  omega

theorem isContinuation_tail (n : Nat) : isContinuation (UInt8.ofNat (n % 64 + 128)) = true := by
  simp only [isContinuation, Bool.and_eq_true, decide_eq_true_eq, UInt8.le_iff_toNat_le, toNat_tail, UInt8.reduceToNat]
  omega

theorem payload_tail (n : Nat) : payload (UInt8.ofNat (n % 64 + 128)) = n % 64 := by
  rw [payload, toNat_tail]
  omega

theorem isSecond_tail {first : UInt8} {n : Nat} (e0 : first.toNat = 0xe0 → 0x20 ≤ n % 64)
    (ed : first.toNat = 0xed → n % 64 < 0x20) (f0 : first.toNat = 0xf0 → 0x10 ≤ n % 64)
    (f4 : first.toNat = 0xf4 → n % 64 < 0x10) : isSecond first (UInt8.ofNat (n % 64 + 128)) = true := by
  simp only [isSecond, ← UInt8.toNat_inj, isContinuation_tail, UInt8.le_iff_toNat_le, toNat_tail, UInt8.reduceToNat]
  split_ifs <;> simp only [Bool.and_eq_true, decide_eq_true_eq] <;> omega

theorem front_encode (c : Char) (more : List UInt8) :
    ∃ b bs, String.utf8EncodeChar c = b :: bs ∧ front b (bs ++ more) = .char c bs.length := by
  have valid : c.toNat < 0xd800 ∨ 0xdfff < c.toNat ∧ c.toNat < 0x110000 := c.valid
  have same : c.val.toNat = c.toNat := rfl
  unfold String.utf8EncodeChar
  simp only [same]
  by_cases one : c.toNat ≤ 0x7f
  · simp only [one, if_true]
    refine ⟨_, _, rfl, ?_⟩
    have first : (UInt8.ofNat c.toNat).toNat = c.toNat := by rw [UInt8.toNat_ofNat']; omega
    simp only [front, UInt8.lt_iff_toNat_lt, first, UInt8.reduceToNat, show c.toNat < 128 by omega, if_true, Char.ofNat_toNat]
    rfl
  by_cases two : c.toNat ≤ 0x7ff
  · simp only [one, two, if_true, if_false]
    refine ⟨_, _, rfl, ?_⟩
    have first : (UInt8.ofNat (c.toNat / 64 % 0x20 + 0xc0)).toNat = c.toNat / 64 + 0xc0 := by
      rw [UInt8.toNat_ofNat']; omega
    have value : (c.toNat / 64 + 0xc0) % 32 * 64 + c.toNat % 64 = c.toNat := by omega
    simp only [front, UInt8.lt_iff_toNat_lt, first, UInt8.reduceToNat, List.cons_append, List.nil_append]
    rw [if_neg (by omega), if_neg (by omega), if_pos (by omega),
      if_pos (isSecond_tail (by omega) (by omega) (by omega) (by omega)), payload_tail, value, Char.ofNat_toNat]
    rfl
  by_cases three : c.toNat ≤ 0xffff
  · simp only [one, two, three, if_true, if_false]
    refine ⟨_, _, rfl, ?_⟩
    have first : (UInt8.ofNat (c.toNat / 4096 % 0x10 + 0xe0)).toNat = c.toNat / 4096 + 0xe0 := by
      rw [UInt8.toNat_ofNat']; omega
    have value : ((c.toNat / 4096 + 0xe0) % 16 * 64 + c.toNat / 64 % 64) * 64 + c.toNat % 64 = c.toNat := by omega
    simp only [front, UInt8.lt_iff_toNat_lt, first, UInt8.reduceToNat, List.cons_append, List.nil_append]
    rw [if_neg (by omega), if_neg (by omega), if_neg (by omega), if_pos (by omega),
      if_pos (isSecond_tail (by omega) (by omega) (by omega) (by omega)), if_pos (isContinuation_tail _), payload_tail,
      payload_tail, value, Char.ofNat_toNat]
    rfl
  · simp only [one, two, three, if_false]
    refine ⟨_, _, rfl, ?_⟩
    have first : (UInt8.ofNat (c.toNat / 262144 % 0x08 + 0xf0)).toNat = c.toNat / 262144 + 0xf0 := by
      rw [UInt8.toNat_ofNat']; omega
    have value : (((c.toNat / 262144 + 0xf0) % 8 * 64 + c.toNat / 4096 % 64) * 64 + c.toNat / 64 % 64) * 64 +
        c.toNat % 64 = c.toNat := by omega
    simp only [front, UInt8.lt_iff_toNat_lt, first, UInt8.reduceToNat, List.cons_append, List.nil_append]
    rw [if_neg (by omega), if_neg (by omega), if_neg (by omega), if_neg (by omega), if_pos (by omega),
      if_pos (isSecond_tail (by omega) (by omega) (by omega) (by omega)), if_pos (isContinuation_tail _),
      if_pos (isContinuation_tail _), payload_tail, payload_tail, payload_tail, value, Char.ofNat_toNat]
    rfl

theorem encode_cons (c : Char) (s : List Char) :
    ∃ b bs, encode (c :: s) = b :: (bs ++ encode s) ∧ front b (bs ++ encode s) = .char c bs.length := by
  obtain ⟨b, bs, bytes, char⟩ := front_encode c (encode s)
  refine ⟨b, bs, ?_, char⟩
  rw [encode, List.flatMap_cons, bytes]
  rfl

theorem decodeFront_encode (s : List Char) : decodeFront (encode s) = (s, []) := by
  induction s with
  | nil => simp [encode, decodeFront]
  | cons c s ih =>
    obtain ⟨b, bs, parts, char⟩ := encode_cons c s
    rw [parts, decodeFront_char char, List.drop_left, ih]

theorem decodeLossy_encode (s : List Char) : decodeLossy (encode s) = s := by
  induction s with
  | nil => simp [encode, decodeLossy]
  | cons c s ih =>
    obtain ⟨b, bs, parts, char⟩ := encode_cons c s
    rw [parts, decodeLossy, char]
    simp only [List.drop_left, ih]

/-! ### Byte arrays -/

theorem toList_loop (bytes : ByteArray) (i : Nat) (acc : List UInt8) :
    ByteArray.toList.loop bytes i acc = acc.reverse ++ bytes.data.toList.drop i := by
  fun_induction ByteArray.toList.loop bytes i acc with
  | case1 i acc h ih =>
    have inside : i < bytes.data.toList.length := h
    rw [ih, List.drop_eq_getElem_cons inside, List.reverse_cons, List.append_assoc]
    simp [ByteArray.get!, getElem!_pos, h]
  | case2 i acc h =>
    have outside : bytes.data.toList.length ≤ i := Nat.le_of_not_lt h
    rw [List.drop_eq_nil_of_le outside, List.append_nil]

theorem toList_toUTF8 (s : String) : s.toUTF8.toList = encode s.toList := by
  have bytes := String.toByteArray_ofList (l := s.toList)
  rw [String.ofList_toList] at bytes
  rw [ByteArray.toList, toList_loop]
  change s.toByteArray.data.toList = _
  rw [bytes, List.utf8Encode, List.data_toByteArray]
  rfl

end LedgerLoad.Text.Utf8
