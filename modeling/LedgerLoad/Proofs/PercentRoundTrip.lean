import LedgerLoad.Proofs.Utf8RoundTrip
import LedgerLoad.Text.Percent

/-!
Percent encoding loses nothing as long as the percent sign is encoded itself, and writes nothing but percent signs, digits and
characters outside its set.
-/

set_option autoImplicit false

namespace LedgerLoad.Text

variable {s t : List Char} {c : Char} {set : Char → Bool}

namespace Utf8

theorem decode?_encode (s : List Char) : decode? (encode s) = some s := by
  rw [decode?, decodeFront_encode]

theorem encode_injective (h : encode s = encode t) : s = t := by
  have same := decode?_encode s
  rw [h, decode?_encode] at same
  exact (Option.some.inj same).symm

end Utf8

namespace Percent

/-! ### Bytes -/

theorem hexValue?_hexDigitUpper (n : Nat) : hexValue? (hexDigitUpper n) = some (n % 16) := by
  have digits : ∀ m < 16, hexValue? (Nat.digitChar m).toUpper = some m := by decide
  exact digits (n % 16) (Nat.mod_lt _ (by decide))

theorem decode_encodeByte (b : UInt8) (t : List Char) : decode (encodeByte b ++ t) = b :: decode t := by
  have value : UInt8.ofNat (b.toNat / 16 % 16 * 16 + b.toNat % 16) = b := by
    have bound := b.toNat_lt
    rw [show b.toNat / 16 % 16 * 16 + b.toNat % 16 = b.toNat by omega, UInt8.ofNat_toNat]
  simp only [encodeByte, List.cons_append, List.nil_append, decode, hexValue?_hexDigitUpper, value]

theorem decode_encodeBytes (bytes : List UInt8) (t : List Char) :
    decode (bytes.flatMap encodeByte ++ t) = bytes ++ decode t := by
  induction bytes with
  | nil => rfl
  | cons b bytes ih => rw [List.flatMap_cons, List.append_assoc, decode_encodeByte, ih, List.cons_append]

/-! ### Texts -/

theorem decode_cons (h : c ≠ '%') (t : List Char) : decode (c :: t) = String.utf8EncodeChar c ++ decode t := by
  rw [decode]
  rintro a b r rfl -
  exact h rfl

theorem encode_cons (set : Char → Bool) (c : Char) (s : List Char) :
    encode set (c :: s) = (if set c then (String.utf8EncodeChar c).flatMap encodeByte else [c]) ++ encode set s :=
  List.flatMap_cons

theorem decode_encode_append (percent : set '%' = true) (s t : List Char) :
    decode (encode set s ++ t) = Utf8.encode s ++ decode t := by
  induction s with
  | nil => rfl
  | cons c s ih =>
    have bytes : Utf8.encode (c :: s) = String.utf8EncodeChar c ++ Utf8.encode s := List.flatMap_cons
    rw [encode_cons, bytes, List.append_assoc]
    split
    · rw [decode_encodeBytes, ih, List.append_assoc]
    · rename_i itself
      have other : c ≠ '%' := by
        rintro rfl
        exact itself percent
      rw [List.singleton_append, decode_cons other, ih, List.append_assoc]

theorem decode_encode (percent : set '%' = true) (s : List Char) : decode (encode set s) = Utf8.encode s := by
  have whole := decode_encode_append percent s []
  rwa [List.append_nil, decode, List.append_nil] at whole

theorem decode?_decode_encode (percent : set '%' = true) (s : List Char) :
    Utf8.decode? (decode (encode set s)) = some s := by
  rw [decode_encode percent, Utf8.decode?_encode]

theorem mem_encodeByte {b : UInt8} (h : c ∈ encodeByte b) : c = '%' ∨ ∃ n, c = hexDigitUpper n := by
  simp only [encodeByte, List.mem_cons, List.not_mem_nil, or_false] at h
  rcases h with rfl | rfl | rfl
  · exact .inl rfl
  · exact .inr ⟨_, rfl⟩
  · exact .inr ⟨_, rfl⟩

/-- A delimiter that is encoded does not occur, unless encoding itself writes it. -/
theorem not_mem_encode (encoded : set c = true) (sign : c ≠ '%') (digit : ∀ n, c ≠ hexDigitUpper n) (s : List Char) :
    c ∉ encode set s := by
  intro h
  obtain ⟨d, _, hc⟩ := List.mem_flatMap.1 h
  split at hc
  · obtain ⟨b, _, hb⟩ := List.mem_flatMap.1 hc
    rcases mem_encodeByte hb with same | ⟨n, same⟩
    · exact sign same
    · exact digit n same
  · rename_i itself
    rw [List.mem_singleton] at hc
    exact itself (hc ▸ encoded)

end Percent

end LedgerLoad.Text
