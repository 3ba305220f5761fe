import MediaCatalog.Proofs.Text.Utf8
import MediaCatalog.Text.Percent

namespace MediaCatalog.Text.Percent

def IsEncoded (c : Char) : Prop := c = '%' ∨ isPlain c.toNat

theorem isPlain_bounds {n : Nat} (h : isPlain n) : n < 0x80 ∧ n ≠ 0x25 := by
  simp only [isPlain, Bool.or_eq_true, Bool.and_eq_true, decide_eq_true_eq, beq_iff_eq] at h
  omega

theorem toNat_ofNat_of_lt {n : Nat} (h : n < 0x80) : (Char.ofNat n).toNat = n := by
  have hvalid : n.isValidChar := .inl (by omega)
  rw [Char.ofNat, dif_pos hvalid]
  rfl

theorem hexValue?_hexDigit : ∀ n < 16, hexValue? (hexDigit n) = some n := by
  decide

theorem isPlain_hexDigit : ∀ n < 16, isPlain (hexDigit n).toNat := by
  decide

theorem bytes_cons_of_ne {c : Char} (h : c ≠ '%') (rest : List Char) :
    bytes (c :: rest) = Utf8.encodeChar c ++ bytes rest := by
  rw [bytes]
  intro a b more hc
  exact absurd hc h

theorem bytes_cons_hex {a b : Char} {x y : Nat} (ha : hexValue? a = some x)
    (hb : hexValue? b = some y) (rest : List Char) :
    bytes ('%' :: a :: b :: rest) = (x * 16 + y).toUInt8 :: bytes rest := by
  rw [bytes, ha, hb]

theorem bytes_encodeByte (b : UInt8) (rest : List Char) :
    bytes (encodeByte b ++ rest) = b :: bytes rest := by
  rw [encodeByte]
  cases hplain : isPlain b.toNat with
  | true =>
      obtain ⟨hlt, hne⟩ := isPlain_bounds hplain
      have hback := toNat_ofNat_of_lt hlt
      have hc : Char.ofNat b.toNat ≠ '%' := by
        intro he
        rw [he] at hback
        exact hne hback.symm
      rw [if_pos rfl, List.singleton_append, bytes_cons_of_ne hc, Utf8.encodeChar, hback,
        if_pos hlt, Nat.toUInt8_eq, UInt8.ofNat_toNat, List.singleton_append]
  | false =>
      have hlt : b.toNat < 256 := b.toNat_lt
      have hvalue : b.toNat / 16 * 16 + b.toNat % 16 = b.toNat := by omega
      rw [if_neg Bool.false_ne_true, List.cons_append, List.cons_append, List.singleton_append,
        bytes_cons_hex (hexValue?_hexDigit _ (by omega)) (hexValue?_hexDigit _ (by omega)), hvalue,
        Nat.toUInt8_eq, UInt8.ofNat_toNat]

theorem bytes_flatMap_encodeByte (b : List UInt8) : bytes (b.flatMap encodeByte) = b := by
  induction b with
  | nil => rw [List.flatMap_nil, bytes]
  | cons x b ih => rw [List.flatMap_cons, bytes_encodeByte, ih]

theorem decode_encode (s : List Char) : decode (encode s) = s := by
  rw [decode, encode, bytes_flatMap_encodeByte, Utf8.decode_encode]

theorem isEncoded_of_mem_encodeByte {b : UInt8} {c : Char} (h : c ∈ encodeByte b) :
    IsEncoded c := by
  rw [encodeByte] at h
  split at h
  · rename_i hplain
    obtain rfl := List.mem_singleton.1 h
    right
    rw [toNat_ofNat_of_lt (isPlain_bounds hplain).1]
    exact hplain
  · have hlt : b.toNat < 256 := b.toNat_lt
    simp only [List.mem_cons, List.not_mem_nil, or_false] at h
    rcases h with rfl | rfl | rfl
    · exact .inl rfl
    · exact .inr (isPlain_hexDigit _ (by omega))
    · exact .inr (isPlain_hexDigit _ (by omega))

theorem isEncoded_of_mem_encode {s : List Char} {c : Char} (h : c ∈ encode s) : IsEncoded c := by
  obtain ⟨b, -, hc⟩ := List.mem_flatMap.1 h
  exact isEncoded_of_mem_encodeByte hc

theorem IsEncoded.not_mem {c : Char} (h : IsEncoded c) :
    c ∉ ['#', '?', '\t', '\r', '\n'] := by
  intro hmem
  simp only [List.mem_cons, List.not_mem_nil, or_false] at hmem
  rcases hmem with rfl | rfl | rfl | rfl | rfl <;> revert h <;> simp only [IsEncoded] <;> decide

theorem encode_slash (s : List Char) : encode ('/' :: s) = '/' :: encode s := rfl

end MediaCatalog.Text.Percent
