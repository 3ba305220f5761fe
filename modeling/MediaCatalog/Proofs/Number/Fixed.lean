import Mathlib.Data.List.TakeWhile
import Mathlib.Data.Nat.Cast.Order.Field
import MediaCatalog.Proofs.Number.Binary64

namespace MediaCatalog

section RoundDiv

variable {a b d : Nat}

theorem two_mul_roundDiv (hd : 0 < d) (a : Nat) :
    2 * (roundDiv a d * d) ≤ 2 * a + d ∧ 2 * a ≤ 2 * (roundDiv a d * d) + d := by
  have hdiv := Nat.div_add_mod' a d
  have hmod := Nat.mod_lt a hd
  have hsucc : (a / d + 1) * d = a / d * d + d := Nat.succ_mul _ _
  rw [roundDiv]
  split_ifs <;> omega

theorem div_le_roundDiv (a d : Nat) : a / d ≤ roundDiv a d ∧ roundDiv a d ≤ a / d + 1 := by
  rw [roundDiv]
  split_ifs <;> omega

theorem roundDiv_mono (h : a ≤ b) (d : Nat) : roundDiv a d ≤ roundDiv b d := by
  have ha := (div_le_roundDiv a d).2
  have hb := (div_le_roundDiv b d).1
  rcases Nat.lt_or_eq_of_le (Nat.div_le_div_right (c := d) h) with hlt | heq
  · omega
  · have hmod : a % d ≤ b % d := by
      have ha := Nat.div_add_mod a d
      have hb := Nat.div_add_mod b d
      rw [heq] at ha
      omega
    simp only [roundDiv, heq]
    split_ifs <;> omega

/-- Rounding to a whole number is off by at most one half. -/
theorem abs_roundDiv_sub (hd : 0 < d) (a : Nat) : |(roundDiv a d : ℚ) - a / d| ≤ 1 / 2 := by
  obtain ⟨hle, hge⟩ := two_mul_roundDiv hd a
  have hpos : (0 : ℚ) < d := by exact_mod_cast hd
  have hle : 2 * ((roundDiv a d : ℚ) * d) ≤ 2 * a + d := by exact_mod_cast hle
  have hge : 2 * (a : ℚ) ≤ 2 * (roundDiv a d * d) + d := by exact_mod_cast hge
  have hdiff : (roundDiv a d : ℚ) - a / d = (roundDiv a d * d - a) / d := by
    field_simp
  rw [hdiff, abs_le, le_div_iff₀ hpos, div_le_iff₀ hpos]
  constructor <;> linarith

/-- The ratio rounded to a number of decimal places. -/
def rounded (num den places : Nat) : ℚ := roundDiv (num * 10 ^ places) den / 10 ^ places

theorem abs_rounded_sub (hd : 0 < d) (a places : Nat) :
    |rounded a d places - a / d| ≤ 1 / (2 * 10 ^ places) := by
  have hpow : (0 : ℚ) < 10 ^ places := by positivity
  have hround := abs_roundDiv_sub hd (a * 10 ^ places)
  have hdiff : rounded a d places - a / d =
      (roundDiv (a * 10 ^ places) d - (a * 10 ^ places : Nat) / d) / 10 ^ places := by
    rw [rounded]
    push_cast
    field_simp
  rw [hdiff, abs_div, abs_of_pos hpow, div_le_iff₀ hpow]
  refine hround.trans (le_of_eq ?_)
  field_simp

theorem rounded_mono (h : a ≤ b) (d places : Nat) : rounded a d places ≤ rounded b d places := by
  have hround := roundDiv_mono (Nat.mul_le_mul_right (10 ^ places) h) d
  exact div_le_div_of_nonneg_right (by exact_mod_cast hround) (by positivity)

theorem rounded_mul_self (n : Nat) (hd : 0 < d) (places : Nat) : rounded (n * d) d places = n := by
  rw [rounded, Nat.mul_right_comm, roundDiv_mul_self _ hd]
  push_cast
  exact mul_div_cancel_right₀ _ (by positivity)

end RoundDiv

namespace Number

/-- The number that digits spell, with a point and further digits behind it or without. -/
def fixed? (s : List Char) : Option ℚ :=
  match s.span Char.isDigit with
  | (whole, []) => some (digitsValue whole)
  | (whole, '.' :: places) =>
    if places.all Char.isDigit then some (digitsValue (whole ++ places) / 10 ^ places.length)
    else none
  | _ => none

variable {whole places : List Char}

theorem fixed?_whole (h : ∀ c ∈ whole, c.isDigit) :
    fixed? whole = some (digitsValue whole : ℚ) := by
  have hspan : whole.span Char.isDigit = (whole, []) := by
    rw [List.span_eq_takeWhile_dropWhile, List.takeWhile_eq_self_iff.2 h,
      List.dropWhile_eq_nil_iff.2 h]
  rw [fixed?, hspan]

theorem fixed?_point (h : ∀ c ∈ whole, c.isDigit) (hplaces : ∀ c ∈ places, c.isDigit) :
    fixed? (whole ++ '.' :: places) =
      some (digitsValue (whole ++ places) / 10 ^ places.length : ℚ) := by
  have hspan : (whole ++ '.' :: places).span Char.isDigit = (whole, '.' :: places) := by
    rw [List.span_eq_takeWhile_dropWhile, List.takeWhile_append_of_pos h,
      List.dropWhile_append_of_pos h, List.takeWhile_cons_of_neg (by decide),
      List.dropWhile_cons_of_neg (by decide), List.append_nil]
  rw [fixed?, hspan]
  exact if_pos (List.all_eq_true.2 hplaces)

theorem digitsValue_toDigits (n : Nat) : digitsValue (Nat.toDigits 10 n) = n :=
  Nat.ofDigitChars_ten_toDigits

theorem digitsValue_zeros (k : Nat) (s : List Char) :
    digitsValue (List.replicate k '0' ++ s) = digitsValue s := by
  induction k with
  | zero => rfl
  | succ k ih => exact ih

def paddedDigits (length n : Nat) : List Char :=
  List.replicate (length - (Nat.toDigits 10 n).length) '0' ++ Nat.toDigits 10 n

theorem isDigit_paddedDigits {length n : Nat} {c : Char} (h : c ∈ paddedDigits length n) :
    c.isDigit := by
  rcases List.mem_append.1 h with h | h
  · rw [List.eq_of_mem_replicate h]
    rfl
  · exact Nat.isDigit_of_mem_toDigits (by decide) (by decide) h

theorem le_length_paddedDigits (length n : Nat) : length ≤ (paddedDigits length n).length := by
  rw [paddedDigits, List.length_append, List.length_replicate]
  omega

theorem toList_fixedRatio (num den places : Nat) :
    let ds := paddedDigits (places + 1) (roundDiv (num * 10 ^ places) den)
    (fixedRatio false num den places).toList =
      ds.take (ds.length - places) ++ if places = 0 then [] else '.' :: ds.drop (ds.length - places)
    := by
  have hsign : (if false then "-" else "") = "" := rfl
  rw [fixedRatio, hsign]
  dsimp only
  rw [String.empty_append, String.toList_append, String.toList_ofList]
  split_ifs
  · rfl
  · rw [String.toList_append, String.toList_ofList, String.toList_ofList]
    rfl

theorem fixed?_fixedRatio (num den places : Nat) :
    fixed? (fixedRatio false num den places).toList =
      some (rounded num den places) := by
  have htext := toList_fixedRatio num den places
  dsimp only at htext
  rw [htext]
  generalize hds : paddedDigits (places + 1) (roundDiv (num * 10 ^ places) den) = ds
  have hdigit : ∀ c ∈ ds, c.isDigit := fun c hc => isDigit_paddedDigits (hds ▸ hc)
  have hvalue : digitsValue ds = roundDiv (num * 10 ^ places) den := by
    rw [← hds, paddedDigits, digitsValue_zeros, digitsValue_toDigits]
  have hlength : places + 1 ≤ ds.length := hds ▸ le_length_paddedDigits _ _
  have htake : ∀ c ∈ ds.take (ds.length - places), c.isDigit := fun c hc =>
    hdigit c (List.mem_of_mem_take hc)
  split_ifs with hplaces
  · subst hplaces
    rw [List.append_nil, Nat.sub_zero, List.take_length, fixed?_whole hdigit, hvalue, rounded,
      pow_zero (10 : ℚ), div_one]
  · have hdrop : ∀ c ∈ ds.drop (ds.length - places), c.isDigit := fun c hc =>
      hdigit c (List.mem_of_mem_drop hc)
    rw [fixed?_point htake hdrop, List.take_append_drop, hvalue, List.length_drop,
      Nat.sub_sub_self (by omega), rounded]

theorem isDigit_or_of_mem_fixedRatio {num den places : Nat} {c : Char}
    (h : c ∈ (fixedRatio false num den places).toList) : c.isDigit || c = '.' := by
  rw [toList_fixedRatio num den places] at h
  rcases List.mem_append.1 h with h | h
  · rw [isDigit_paddedDigits (List.mem_of_mem_take h), Bool.true_or]
  · split_ifs at h
    · exact absurd h List.not_mem_nil
    · rcases List.mem_cons.1 h with rfl | h
      · rfl
      · rw [isDigit_paddedDigits (List.mem_of_mem_drop h), Bool.true_or]

theorem fixedRatio_mul_right (neg : Bool) (num den places : Nat) {d : Nat} (hd : 0 < d) :
    fixedRatio neg (num * d) (den * d) places = fixedRatio neg num den places := by
  rw [fixedRatio, fixedRatio, Nat.mul_right_comm, roundDiv_mul_right _ _ hd]

end Number

end MediaCatalog
