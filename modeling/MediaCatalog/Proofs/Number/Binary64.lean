import Mathlib.Data.Rat.Floor
import Mathlib.Tactic.FieldSimp
import Mathlib.Tactic.Linarith
import Mathlib.Tactic.Positivity
import MediaCatalog.Json.Conversion

namespace MediaCatalog

theorem roundDiv_one (n : Nat) : roundDiv n 1 = n := by
  simp [roundDiv, Nat.mod_one]

theorem roundDiv_mul_right (num den : Nat) {d : Nat} (hd : 0 < d) :
    roundDiv (num * d) (den * d) = roundDiv num den := by
  have hlt (a b : Nat) : a * d < b * d ↔ a < b := Nat.mul_lt_mul_right hd
  simp only [roundDiv, Nat.mul_div_mul_right _ _ hd, Nat.mul_mod_mul_right, ← Nat.mul_assoc, hlt]

theorem roundDiv_mul_self (n : Nat) {d : Nat} (hd : 0 < d) : roundDiv (n * d) d = n := by
  simpa only [Nat.one_mul, roundDiv_one] using roundDiv_mul_right n 1 hd

namespace Binary64

def value? : Binary64 → Option ℚ
  | .finite neg m q => some ((if neg then -1 else 1) * m * 2 ^ q)
  | _ => none

variable {neg : Bool} {m : Nat} {q : Int} {x : Binary64} {v : ℚ}

theorem exists_ratio (m : Nat) (q : Int) :
    ∃ n k : Nat, ratio m q = (n, 2 ^ k) ∧ (m : ℚ) * 2 ^ q = n / 2 ^ k := by
  by_cases hq : 0 ≤ q
  · lift q to ℕ using hq
    refine ⟨m * 2 ^ q, 0, if_pos (Int.natCast_nonneg q), ?_⟩
    rw [zpow_natCast]
    push_cast
    rw [pow_zero, div_one]
  · obtain ⟨k, rfl⟩ : ∃ k : Nat, q = -k := ⟨(-q).toNat, by omega⟩
    refine ⟨m, k, ?_, ?_⟩
    · rw [ratio, if_neg hq, neg_neg, Int.toNat_natCast]
      rfl
    · rw [zpow_neg, zpow_natCast, div_eq_mul_inv]

theorem value_eq_div {n k : Nat} (h : (m : ℚ) * 2 ^ q = n / 2 ^ k) :
    (if neg then -1 else 1) * (m : ℚ) * 2 ^ q = signed neg n / 2 ^ k := by
  rw [mul_assoc, h, signed]
  cases neg with
  | false => simp
  | true => simp [neg_div]

/-- Where a number stands among all numbers and the two infinities. -/
def position : Binary64 → WithBot (WithTop ℚ)
  | .nan => 0
  | .inf neg => if neg then ⊥ else ⊤
  | .finite neg m q => (((if neg then -1 else 1) * m * 2 ^ q : ℚ) : WithTop ℚ)

theorem lt_self (x : Binary64) : x.lt x = false := by
  cases x with
  | nan => rfl
  | inf neg => cases neg <;> rfl
  | finite neg m q => simp [lt]

theorem lt_iff_position {y : Binary64} (hx : x ≠ .nan) (hy : y ≠ .nan) :
    x.lt y ↔ x.position < y.position := by
  cases x with
  | nan => exact absurd rfl hx
  | inf a =>
      cases y with
      | nan => exact absurd rfl hy
      | inf b => cases a <;> cases b <;> simp [lt, position]
      | finite b n p => cases a <;> simp [lt, position, ← WithBot.coe_top]
  | finite a m q =>
      cases y with
      | nan => exact absurd rfl hy
      | inf b => cases b <;> simp [lt, position, ← WithBot.coe_top]
      | finite b n p =>
          obtain ⟨i, k, hratio, hvalue⟩ := exists_ratio m q
          obtain ⟨j, l, hratio', hvalue'⟩ := exists_ratio n p
          have hk : (0 : ℚ) < 2 ^ k := by positivity
          have hl : (0 : ℚ) < 2 ^ l := by positivity
          rw [position, position, WithBot.coe_lt_coe, WithTop.coe_lt_coe, value_eq_div hvalue,
            value_eq_div hvalue', div_lt_div_iff₀ hk hl, lt, hratio, hratio', decide_eq_true_iff]
          norm_cast

theorem isPositive_iff : x.isPositive ↔ x = .inf false ∨ ∃ v, x.value? = some v ∧ 0 < v := by
  cases x with
  | nan => simp [isPositive, lt, zero, value?]
  | inf neg => simp [isPositive, lt, zero, value?]
  | finite neg m q =>
      obtain ⟨n, k, hratio, hvalue⟩ := exists_ratio m q
      have hlt : isPositive (.finite neg m q) ↔ 0 < signed neg n := by
        obtain ⟨a, d, hunit, hvalue⟩ := exists_ratio 0 (-1074)
        have ha : a = 0 := congrArg Prod.fst hunit.symm
        simp only [isPositive, lt, zero, hratio, hunit, ha, signed, decide_eq_true_eq,
          Bool.false_eq_true, if_false, Int.natCast_zero, zero_mul]
        exact mul_pos_iff_of_pos_right (by positivity)
      have hpow : (0 : ℚ) < 2 ^ k := by positivity
      rw [hlt, value?]
      simp only [mul_assoc, hvalue, reduceCtorEq, Option.some.injEq, false_or, exists_eq_left',
        signed]
      cases neg
      · simp [div_pos_iff_of_pos_right hpow]
      · simp only [if_true, neg_one_mul, Left.neg_pos_iff]
        constructor
        · omega
        · intro h
          have : (0 : ℚ) ≤ n / 2 ^ k := by positivity
          linarith

theorem wholePart_of_pos (h : x.value? = some v) (hv : 0 < v) : x.wholePart = .ok ⌊v⌋ := by
  cases x with
  | nan | inf => cases h
  | finite neg m q =>
      obtain ⟨n, k, hratio, hvalue⟩ := exists_ratio m q
      rw [value?, mul_assoc, hvalue, Option.some.injEq] at h
      have hnonneg : (0 : ℚ) ≤ n / 2 ^ k := by positivity
      cases neg with
      | true =>
          rw [if_pos rfl] at h
          linarith
      | false =>
          rw [if_neg Bool.false_ne_true, one_mul] at h
          have hfloor : ⌊v⌋ = ((n / 2 ^ k : Nat) : Int) := by
            rw [← h]
            exact_mod_cast Rat.floor_natCast_div_natCast n (2 ^ k)
          rw [hfloor]
          simp only [wholePart, trunc?, hratio]
          rfl

section OfRatio

theorem log2_mul_two_pow {c : Nat} (hc : c ≠ 0) (k : Nat) : (c * 2 ^ k).log2 = c.log2 + k := by
  have hpow : 0 < 2 ^ k := Nat.pow_pos (by decide)
  refine (Nat.log2_eq_iff (Nat.mul_ne_zero hc hpow.ne')).2 ⟨?_, ?_⟩
  · rw [Nat.pow_add]
    exact Nat.mul_le_mul_right _ (Nat.log2_self_le hc)
  · rw [Nat.add_right_comm, Nat.pow_add]
    exact Nat.mul_lt_mul_of_pos_right Nat.lt_log2_self hpow

theorem log2Ratio_mul_two_pow {c : Nat} (hc : c ≠ 0) (k : Nat) :
    log2Ratio (c * 2 ^ k) (2 ^ k) = c.log2 := by
  have hden : (2 ^ k).log2 = k := Nat.log2_two_pow
  have hexp : ((c * 2 ^ k).log2 : Int) - ((2 ^ k).log2 : Int) = c.log2 := by
    rw [log2_mul_two_pow hc, hden]
    omega
  have hfits : 2 ^ k * 2 ^ c.log2 ≤ c * 2 ^ k := by
    rw [Nat.mul_comm]
    exact Nat.mul_le_mul_right _ (Nat.log2_self_le hc)
  simp only [log2Ratio, hexp, Int.natCast_nonneg, if_true, Int.toNat_natCast]
  exact if_pos hfits

theorem log2Ratio_two_pow {c : Nat} (hc : c ≠ 0) (k : Nat) :
    log2Ratio c (2 ^ k) = (c.log2 : Int) - k := by
  have hden : (2 ^ k).log2 = k := Nat.log2_two_pow
  rw [log2Ratio, hden]
  rcases Nat.le_total k c.log2 with hk | hk
  · obtain ⟨j, hj⟩ := Nat.exists_eq_add_of_le hk
    have hfits : 2 ^ k * 2 ^ j ≤ c := by
      rw [← Nat.pow_add, ← hj]
      exact Nat.log2_self_le hc
    have hexp : (c.log2 : Int) - k = j := by omega
    simp only [hexp, Int.natCast_nonneg, if_true, Int.toNat_natCast]
    exact if_pos hfits
  · obtain ⟨j, hj⟩ := Nat.exists_eq_add_of_le hk
    have hfits : 2 ^ k ≤ c * 2 ^ j := by
      rw [hj, Nat.pow_add]
      exact Nat.mul_le_mul_right _ (Nat.log2_self_le hc)
    have hexp : (c.log2 : Int) - k = -j := by omega
    rw [hexp, neg_neg, Int.toNat_natCast, Int.toNat_neg_natCast]
    rcases Nat.eq_zero_or_pos j with rfl | hpos
    · exact if_pos (by simpa using hfits)
    · exact if_pos (by rw [if_neg (by omega)]; exact hfits)

theorem log2Ratio_one {c : Nat} (hc : c ≠ 0) : log2Ratio c 1 = c.log2 := by
  simpa using log2Ratio_two_pow hc 0

theorem scaledDiv_mul_right (c : Nat) {d : Nat} (hd : 0 < d) (q : Int) :
    scaledDiv (c * d) d q = scaledDiv c 1 q := by
  rw [scaledDiv, scaledDiv]
  split
  · rw [Nat.mul_comm d, Nat.one_mul]
    exact roundDiv_mul_right c _ hd
  · rw [Nat.mul_right_comm]
    simpa only [Nat.one_mul] using roundDiv_mul_right (c * Nat.pow 2 (-q).toNat) 1 hd

theorem ofRatio_mul_two_pow (neg : Bool) (c k : Nat) :
    ofRatio neg (c * 2 ^ k) (2 ^ k) = ofRatio neg c 1 := by
  have hpow : 0 < 2 ^ k := Nat.pow_pos (by decide)
  by_cases hc : c = 0
  · subst hc
    simp [ofRatio]
  have hlog : log2Ratio (c * 2 ^ k) (2 ^ k) = log2Ratio c 1 :=
    (log2Ratio_mul_two_pow hc k).trans (log2Ratio_one hc).symm
  simp only [ofRatio, hlog, scaledDiv_mul_right c hpow, hc, hpow.ne', Nat.mul_eq_zero, or_self,
    decide_false, Bool.or_self, one_ne_zero]

theorem ofRatio_two_pow (neg : Bool) {c k : Nat} (hc : c ≠ 0) (hlt : c < 2 ^ 53) (hk : k ≤ 1000) :
    ofRatio neg c (2 ^ k) = .finite neg (c * 2 ^ (52 - c.log2)) ((c.log2 : Int) - 52 - k) := by
  have hlog : c.log2 ≤ 52 := Nat.le_of_lt_succ ((Nat.log2_lt hc).2 hlt)
  have hpow : 0 < 2 ^ k := Nat.pow_pos (by decide)
  have hexp : max (log2Ratio c (2 ^ k) - 52) (-1074) = (c.log2 : Int) - 52 - k := by
    rw [log2Ratio_two_pow hc]
    omega
  have hscaled : scaledDiv c (2 ^ k) ((c.log2 : Int) - 52 - k) = c * 2 ^ (52 - c.log2) := by
    have hmul := roundDiv_mul_self (c * 2 ^ (52 - c.log2)) hpow
    rw [Nat.mul_assoc, ← Nat.pow_add] at hmul
    rw [scaledDiv]
    split
    · obtain rfl : k = 0 := by omega
      rw [show 52 - c.log2 = 0 by omega, show ((c.log2 : Int) - 52 - (0 : Nat)).toNat = 0 by omega]
      exact (roundDiv_one c).trans (Nat.mul_one c).symm
    · rw [show (-((c.log2 : Int) - 52 - k)).toNat = 52 - c.log2 + k by omega]
      exact hmul
  have hcarry : c * 2 ^ (52 - c.log2) ≠ 0x20000000000000 := by
    have hmul : c * 2 ^ (52 - c.log2) < 2 ^ (c.log2 + 1) * 2 ^ (52 - c.log2) :=
      Nat.mul_lt_mul_of_pos_right Nat.lt_log2_self (Nat.pow_pos (by decide))
    rw [← Nat.pow_add, show c.log2 + 1 + (52 - c.log2) = 53 by omega] at hmul
    omega
  simp only [ofRatio, hexp, hscaled, hc, hcarry, hpow.ne', if_false, decide_false, Bool.or_self,
    Bool.false_eq_true]
  exact if_neg (by omega)

theorem ofRatio_of_lt (neg : Bool) {c : Nat} (hc : c ≠ 0) (hlt : c < 2 ^ 53) :
    ofRatio neg c 1 = .finite neg (c * 2 ^ (52 - c.log2)) ((c.log2 : Int) - 52) := by
  simpa using ofRatio_two_pow neg hc hlt (Nat.zero_le 1000)

theorem value_ofInt {n : Int} (h : n.natAbs < 2 ^ 53) : (ofInt n).value? = some (n : ℚ) := by
  by_cases hn : n.natAbs = 0
  · rw [Int.natAbs_eq_zero.1 hn]
    simp [ofInt, ofRatio, value?]
  have hlog : n.natAbs.log2 ≤ 52 := Nat.le_of_lt_succ ((Nat.log2_lt hn).2 h)
  have hscale : ((2 : ℚ) ^ (52 - n.natAbs.log2)) * 2 ^ ((n.natAbs.log2 : Int) - 52) = 1 := by
    rw [← zpow_natCast, ← zpow_add₀ two_ne_zero, show ((52 - n.natAbs.log2 : Nat) : Int) +
      ((n.natAbs.log2 : Int) - 52) = 0 by omega, zpow_zero]
  rw [ofInt, ofRatio_of_lt _ hn h, value?, Option.some.injEq]
  push_cast
  rw [mul_assoc, mul_assoc, hscale, mul_one, Nat.cast_natAbs]
  rcases lt_or_ge n 0 with hneg | hpos
  · rw [decide_eq_true hneg, if_pos rfl, abs_of_neg hneg]
    push_cast
    ring
  · rw [decide_eq_false (not_lt.2 hpos), if_neg Bool.false_ne_true, abs_of_nonneg hpos, one_mul]

end OfRatio

theorem ratio_of_whole {n : Int} (h : value? (.finite neg m q) = some (n : ℚ)) :
    n = signed neg n.natAbs ∧ ∃ j, ratio m q = (n.natAbs * 2 ^ j, 2 ^ j) := by
  obtain ⟨a, j, hratio, hvalue⟩ := exists_ratio m q
  rw [value?, mul_assoc, hvalue, Option.some.injEq] at h
  have hpow : (0 : ℚ) < 2 ^ j := by positivity
  have ha : (a : Int) = signed neg 1 * n * 2 ^ j := by
    have hcast : (a : ℚ) = (if neg then -1 else 1) * n * 2 ^ j := by
      rw [← h, ← mul_assoc, mul_assoc, div_mul_cancel₀ _ hpow.ne']
      cases neg <;> simp
    cases neg
    · exact_mod_cast hcast
    · exact_mod_cast hcast
  have hsign : 0 ≤ signed neg 1 * n := by
    by_contra hneg
    have : signed neg 1 * n * 2 ^ j < 0 := mul_neg_of_neg_of_pos (by omega) (by positivity)
    omega
  have habs : signed neg 1 * n = n.natAbs ∧ n = signed neg n.natAbs := by
    cases neg <;> simp only [signed, Bool.false_eq_true, if_true, if_false] at hsign ⊢ <;> omega
  refine ⟨habs.2, j, ?_⟩
  rw [hratio, show a = n.natAbs * 2 ^ j by rw [habs.1] at ha; exact_mod_cast ha]

theorem ofRatio_add_fullTurn :
    ∀ i < 4, i ≠ 0 → (ofRatio true (90 * i) 1).add (ofNat 360) = ofNat (90 * (4 - i)) := by
  decide

theorem modulo_of_rightAngles {k : Int} (h : x.value? = some ((90 * k : Int) : ℚ)) :
    x.modulo 360 = ofNat (90 * (k % 4).toNat) := by
  cases x with
  | nan | inf => cases h
  | finite neg m q =>
      obtain ⟨hsign, j, hratio⟩ := ratio_of_whole h
      have hrest : (90 * k).natAbs * 2 ^ j % (360 * 2 ^ j) = 90 * (k.natAbs % 4) * 2 ^ j := by
        rw [Nat.mul_mod_mul_right, show (90 * k).natAbs % 360 = 90 * (k.natAbs % 4) by omega]
      have hzero : 90 * (k.natAbs % 4) * 2 ^ j = 0 ↔ k.natAbs % 4 = 0 := by simp
      simp only [modulo, hratio, hrest, hzero, ofRatio_mul_two_pow]
      split
      · rw [show (k % 4).toNat = 0 by omega]
        rfl
      · rename_i hleft
        cases neg with
        | true =>
            rw [signed, if_pos rfl] at hsign
            rw [if_pos rfl, ofRatio_add_fullTurn _ (Nat.mod_lt _ (by decide)) hleft,
              show (k % 4).toNat = 4 - k.natAbs % 4 by omega]
        | false =>
            rw [signed, if_neg Bool.false_ne_true] at hsign
            rw [if_neg Bool.false_ne_true, show (k % 4).toNat = k.natAbs % 4 by omega]
            rfl

end Binary64

end MediaCatalog
