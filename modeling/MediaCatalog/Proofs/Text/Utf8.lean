import MediaCatalog.Text.Utf8

namespace MediaCatalog.Text.Utf8

theorem parts_append {b : UInt8} {tail : List UInt8} {c : Char} (hlength : tail.length ≤ 3)
    (h : ∀ rest, front b.toNat (tail.map UInt8.toNat ++ rest) = (some c, tail.length))
    (more : List UInt8) : parts (b :: tail ++ more) = some c :: parts more := by
  have htake : (tail ++ more).take 3 = tail ++ more.take (3 - tail.length) := by
    rw [List.take_append, List.take_of_length_le hlength]
  have hdrop : (tail ++ more).drop tail.length = more := List.drop_left
  rw [List.cons_append, parts, htake, List.map_append, h, hdrop]

theorem toNat_toUInt8 {n : Nat} (h : n < 256) : n.toUInt8.toNat = n :=
  Nat.mod_eq_of_lt h

section Front

variable {n : Nat} {rest : List Nat}

theorem front_one (h : n < 0x80) : front n rest = (some (Char.ofNat n), 0) := by
  rw [front.eq_def, if_pos h]

theorem isTail_rest (m : Nat) : isTail (0x80 + m % 64) := by
  simp only [isTail, Bool.and_eq_true, decide_eq_true_eq]
  omega

theorem front_two (h : 0x80 ≤ n) (h' : n < 0x800) :
    front (0xC0 + n / 64) ((0x80 + n % 64) :: rest) = (some (Char.ofNat n), 1) := by
  have hback : (0xC0 + n / 64 - 0xC0) * 64 + (0x80 + n % 64 - 0x80) = n := by omega
  rw [front, if_neg (by omega), if_neg (by omega), if_pos (by omega)]
  simp only [isTail_rest, if_true, hback]

theorem isSecond_three (h : 0x800 ≤ n) (hlow : n < 0xD800 ∨ 0xDFFF < n) (h' : n < 0x10000) :
    isSecond (0xE0 + n / 4096) (0x80 + n / 64 % 64) := by
  rw [isSecond, secondRange]
  split
  · simp only [Bool.and_eq_true, decide_eq_true_eq]
    omega
  · split
    · simp only [Bool.and_eq_true, decide_eq_true_eq]
      omega
    · have hf0 : 0xE0 + n / 4096 ≠ 0xF0 := by omega
      have hf4 : 0xE0 + n / 4096 ≠ 0xF4 := by omega
      simp only [hf0, hf4, if_false, Bool.and_eq_true, decide_eq_true_eq]
      omega

theorem front_three (h : 0x800 ≤ n) (hlow : n < 0xD800 ∨ 0xDFFF < n) (h' : n < 0x10000) :
    front (0xE0 + n / 4096) ((0x80 + n / 64 % 64) :: (0x80 + n % 64) :: rest) =
      (some (Char.ofNat n), 2) := by
  have hback : (0xE0 + n / 4096 - 0xE0) * 4096 + (0x80 + n / 64 % 64 - 0x80) * 64 +
      (0x80 + n % 64 - 0x80) = n := by omega
  rw [front, if_neg (by omega), if_neg (by omega), if_neg (by omega), if_pos (by omega)]
  simp only [isSecond_three h hlow h', isTail_rest, if_true, hback]

theorem isSecond_four (h : 0x10000 ≤ n) (h' : n < 0x110000) :
    isSecond (0xF0 + n / 262144) (0x80 + n / 4096 % 64) := by
  have he0 : 0xF0 + n / 262144 ≠ 0xE0 := by omega
  have hed : 0xF0 + n / 262144 ≠ 0xED := by omega
  rw [isSecond, secondRange, if_neg he0, if_neg hed]
  split
  · simp only [Bool.and_eq_true, decide_eq_true_eq]
    omega
  · split
    · simp only [Bool.and_eq_true, decide_eq_true_eq]
      omega
    · simp only [Bool.and_eq_true, decide_eq_true_eq]
      omega

theorem front_four (h : 0x10000 ≤ n) (h' : n < 0x110000) :
    front (0xF0 + n / 262144)
        ((0x80 + n / 4096 % 64) :: (0x80 + n / 64 % 64) :: (0x80 + n % 64) :: rest) =
      (some (Char.ofNat n), 3) := by
  have hback : (0xF0 + n / 262144 - 0xF0) * 262144 + (0x80 + n / 4096 % 64 - 0x80) * 4096 +
      (0x80 + n / 64 % 64 - 0x80) * 64 + (0x80 + n % 64 - 0x80) = n := by omega
  rw [front, if_neg (by omega), if_neg (by omega), if_neg (by omega), if_neg (by omega),
    if_pos (by omega)]
  simp only [isSecond_four h h', isTail_rest, if_true, hback]

end Front

/-- A scalar value is no surrogate, so that the second byte of three is always in range. -/
theorem char_bounds (c : Char) : c.toNat < 0xD800 ∨ 0xDFFF < c.toNat ∧ c.toNat < 0x110000 :=
  c.valid

theorem parts_encodeChar (c : Char) (more : List UInt8) :
    parts (encodeChar c ++ more) = some c :: parts more := by
  have hc := char_bounds c
  have hback : some (Char.ofNat c.toNat) = some c := congrArg some (Char.ofNat_toNat c)
  rw [encodeChar]
  generalize c.toNat = n at hc hback
  rw [← hback]
  by_cases h₁ : n < 0x80
  · rw [if_pos h₁]
    apply parts_append (by decide)
    intro rest
    rw [toNat_toUInt8 (by omega), front_one h₁, List.length_nil]
  rw [if_neg h₁]
  by_cases h₂ : n < 0x800
  · rw [if_pos h₂]
    apply parts_append (by simp)
    intro rest
    rw [List.map_cons, List.map_nil, toNat_toUInt8 (by omega), toNat_toUInt8 (by omega)]
    exact front_two (by omega) h₂
  rw [if_neg h₂]
  by_cases h₃ : n < 0x10000
  · rw [if_pos h₃]
    apply parts_append (by simp)
    intro rest
    rw [List.map_cons, List.map_cons, List.map_nil, toNat_toUInt8 (by omega),
      toNat_toUInt8 (by omega), toNat_toUInt8 (by omega)]
    exact front_three (by omega) (by omega) h₃
  · rw [if_neg h₃]
    apply parts_append (by simp)
    intro rest
    rw [List.map_cons, List.map_cons, List.map_cons, List.map_nil, toNat_toUInt8 (by omega),
      toNat_toUInt8 (by omega), toNat_toUInt8 (by omega), toNat_toUInt8 (by omega)]
    exact front_four (by omega) (by omega)

theorem parts_encode (s : List Char) : parts (encode s) = s.map some := by
  induction s with
  | nil => rw [encode, List.flatMap_nil, parts, List.map_nil]
  | cons c s ih =>
      rw [encode, List.flatMap_cons, parts_encodeChar, List.map_cons]
      exact congrArg (some c :: ·) ih

theorem decode_encode (s : List Char) : decode (encode s) = s := by
  rw [decode, parts_encode, List.map_map]
  exact List.map_id s

end MediaCatalog.Text.Utf8
