import Mathlib.Tactic.NormNum
import MediaCatalog.Json
import MediaCatalog.Proofs.Number.Fixed
import MediaCatalog.Report.Size

namespace MediaCatalog.Report

open Binary64

variable {c c' k i j : Nat}

section Fraction

def fraction (c k : Nat) : Binary64 :=
  .finite false (c * 2 ^ (52 - c.log2)) ((c.log2 : Int) - 52 - k)

theorem ofInt_natCast (hc : c ≠ 0) (hlt : c < 2 ^ 53) : ofInt c = fraction c 0 := by
  have hneg : decide ((c : Int) < 0) = false := decide_eq_false (by omega)
  rw [ofInt, hneg, Int.natAbs_natCast, ofRatio_of_lt false hc hlt, fraction]
  simp

theorem log2_le (hc : c ≠ 0) (hlt : c < 2 ^ 53) : c.log2 ≤ 52 :=
  Nat.le_of_lt_succ ((Nat.log2_lt hc).2 hlt)

theorem ratio_fraction (h : c.log2 ≤ 52) (k : Nat) :
    ratio (c * 2 ^ (52 - c.log2)) ((c.log2 : Int) - 52 - k) =
      (c * 2 ^ (52 - c.log2), 2 ^ k * 2 ^ (52 - c.log2)) := by
  rw [ratio, ← Nat.pow_add]
  split
  · rw [show 52 - c.log2 = 0 by omega, show k = 0 by omega,
      show ((c.log2 : Int) - 52 - (0 : Nat)).toNat = 0 by omega]
    simp
  · rw [show (-((c.log2 : Int) - 52 - k)).toNat = k + (52 - c.log2) by omega]
    rfl

theorem lt_step (h : c.log2 ≤ 52) (k : Nat) : (fraction c k).lt step ↔ c < 2 ^ (k + 10) := by
  have hpow : 0 < 2 ^ (52 - c.log2) := Nat.pow_pos (by decide)
  have hstep : step = .finite false (2 ^ 52) (-42) := by decide +kernel
  have hunit : ratio (2 ^ 52) (-42) = (2 ^ 10 * 2 ^ 42, 2 ^ 42) := by decide +kernel
  have hscale (a b : Nat) :
      a * 2 ^ (52 - c.log2) * 2 ^ 42 < 2 ^ 10 * 2 ^ 42 * (b * 2 ^ (52 - c.log2)) ↔
        a < b * 2 ^ 10 := by
    rw [Nat.mul_assoc, show 2 ^ 10 * 2 ^ 42 * (b * 2 ^ (52 - c.log2)) =
      b * 2 ^ 10 * (2 ^ (52 - c.log2) * 2 ^ 42) by ring]
    exact Nat.mul_lt_mul_right (Nat.mul_pos hpow (by decide))
  rw [fraction, hstep, lt, decide_eq_true_eq, ratio_fraction h, hunit, Nat.pow_add, ← hscale]
  simp only [signed, Bool.false_eq_true, if_false]
  exact_mod_cast Iff.rfl

theorem halved_fraction (hc : c ≠ 0) (hlt : c < 2 ^ 53) (hk : k ≤ 900) :
    (fraction c k).halved 10 = fraction c (k + 10) := by
  have hlog := log2_le hc hlt
  have hscaled : (c * 2 ^ (52 - c.log2)).log2 = 52 := by
    rw [log2_mul_two_pow hc]
    omega
  have hne : c * 2 ^ (52 - c.log2) ≠ 0 := Nat.mul_ne_zero hc (Nat.pow_pos (by decide)).ne'
  have hround := ofRatio_two_pow false hne (k := k + (52 - c.log2) + 10)
    ((Nat.log2_lt hne).1 (by omega)) (by omega)
  rw [hscaled, Nat.sub_self, pow_zero, Nat.mul_one, Nat.pow_add, Nat.pow_add] at hround
  rw [fraction, halved, ratio_fraction hlog]
  refine hround.trans ?_
  rw [fraction]
  congr 1
  omega

theorem fixed_fraction (h : c.log2 ≤ 52) (k places : Nat) :
    (fraction c k).fixed places = fixedRatio false c (2 ^ k) places := by
  rw [fraction, fixed, ratio_fraction h]
  exact Number.fixedRatio_mul_right false c (2 ^ k) places (Nat.pow_pos (by decide))

end Fraction

section Units

/-- Going up from a unit that the count fills, the loop stops at one that it fills too, and either
the count does not fill the next one or there is none. -/
theorem exists_inUnits {last : String} {names : List String} (hlast : last ∈ names) (hc : c ≠ 0)
    (hlt : c < 2 ^ 53) (hk : k + 10 * names.length ≤ 900) (hfull : 2 ^ k ≤ c) :
    ∃ j name, names[j]? = some name ∧
      inUnits last (fraction c k) names = some (inUnit (fraction c (k + 10 * j)) name) ∧
      2 ^ (k + 10 * j) ≤ c ∧ (c < 2 ^ (k + 10 * j + 10) ∨ name = last) := by
  have hlog := log2_le hc hlt
  -- After `k` halvings the number is `c / 2 ^ k` exactly: halving a double of this size never rounds.
  induction names generalizing k with
  | nil => exact absurd hlast List.not_mem_nil
  | cons name names ih =>
      rw [inUnits]
      rw [List.length_cons] at hk
      by_cases hstop : ((fraction c k).lt step || name = last) = true
      · refine ⟨0, name, rfl, if_pos hstop, hfull, ?_⟩
        rwa [Bool.or_eq_true, lt_step hlog, decide_eq_true_eq] at hstop
      · rw [if_neg hstop, halved_fraction hc hlt (by omega)]
        rw [Bool.or_eq_true, lt_step hlog, decide_eq_true_eq, not_or, Nat.not_lt] at hstop
        have hrest : last ∈ names := by
          rcases List.mem_cons.1 hlast with rfl | hrest
          · exact absurd rfl hstop.2
          · exact hrest
        obtain ⟨j, found, hfound, hunits, hle, hend⟩ := ih hrest (by omega) hstop.1
        rw [show k + 10 + 10 * j = k + 10 * (j + 1) by omega] at hunits hle hend
        exact ⟨j + 1, found, hfound, hunits, hle, hend⟩

def sizes : List (String × Nat) :=
  [("B", 1), ("KiB", 2 ^ 10), ("MiB", 2 ^ 20), ("GiB", 2 ^ 30), ("TiB", 2 ^ 40)]

/-- A mantissa with the unit behind it: the number up to the first character that is neither a digit
nor a point, and the bytes of the unit. -/
def reading? (text : String) : Option (ℚ × Nat) :=
  let (number, name) := text.toList.span fun c => c.isDigit || c = '.'
  match Number.fixed? number, field? (String.ofList name) sizes with
  | some mantissa, some size => some (mantissa, size)
  | _, _ => none

theorem reading?_append {name : String} {size : Nat} (hsize : (name, size) ∈ sizes)
    (num den places : Nat) :
    reading? (fixedRatio false num den places ++ name) = some (rounded num den places, size) := by
  have hname : ∀ p ∈ sizes, (p.1.toList.span fun c => c.isDigit || c = '.') = ([], p.1.toList) ∧
      field? p.1 sizes = some p.2 := by decide
  obtain ⟨hspan, hfield⟩ := hname _ hsize
  rw [List.span_eq_takeWhile_dropWhile, Prod.mk.injEq] at hspan
  have hnumber : ∀ c ∈ (fixedRatio false num den places).toList, (c.isDigit || c = '.') = true :=
    fun c hc => Number.isDigit_or_of_mem_fixedRatio hc
  rw [reading?, String.toList_append, List.span_eq_takeWhile_dropWhile,
    List.takeWhile_append_of_pos hnumber, List.dropWhile_append_of_pos hnumber, hspan.1, hspan.2,
    List.append_nil]
  dsimp only
  rw [Number.fixed?_fixedRatio, String.ofList_toList, hfield]

/-- The count fills the unit, and not the next one if there is one. -/
structure Fills (c j : Nat) : Prop where
  le_last : j ≤ 4
  le : 2 ^ (10 * j) ≤ c
  lt : j ≠ 4 → c < 2 ^ (10 * j + 10)

def mantissa (c j : Nat) : ℚ := rounded c (2 ^ (10 * j)) (min j 1)

theorem exists_text (hc : c ≠ 0) (hlt : c < 2 ^ 53) :
    ∃ j text, Fills c j ∧ inUnits lastUnit (ofInt c) units = some text ∧
      humanBytes (some c) = .ok text ∧ reading? text = some (mantissa c j, 2 ^ (10 * j)) := by
  obtain ⟨j, name, hname, hunits, hle, hend⟩ := @exists_inUnits c 0 lastUnit units (by decide) hc
    hlt (by decide) (Nat.pos_of_ne_zero hc)
  rw [Nat.zero_add] at hunits hle hend
  rw [← ofInt_natCast hc hlt] at hunits
  have hj : j < units.length := (List.getElem?_eq_some_iff.1 hname).1
  have htable : ∀ i < units.length, ∀ name, units[i]? = some name →
      (name, 2 ^ (10 * i)) ∈ sizes ∧ (name = lastUnit → i = 4) ∧
        min i 1 = if name = "B" then 0 else 1 := by decide
  obtain ⟨hsize, hlast, hplaces⟩ := htable j hj name hname
  have htext : inUnit (fraction c (10 * j)) name =
      fixedRatio false c (2 ^ (10 * j)) (min j 1) ++ name := by
    rw [inUnit, fixed_fraction (log2_le hc hlt), fixed_fraction (log2_le hc hlt), hplaces]
    split_ifs <;> rfl
  have hpositive : ¬ (c : Int) ≤ 0 := by omega
  have hfinite : (ofInt c).isFinite := by rw [ofInt_natCast hc hlt]; rfl
  refine ⟨j, inUnit (fraction c (10 * j)) name, ⟨Nat.le_of_lt_succ hj, hle, fun hne => ?_⟩, hunits,
    ?_, ?_⟩
  · exact hend.resolve_right fun he => hne (hlast he)
  · rw [humanBytes]
    dsimp only
    rw [if_neg hpositive, if_pos hfinite, hunits]
    rfl
  · rw [htext]
    exact reading?_append hsize c (2 ^ (10 * j)) (min j 1)

end Units

section Reading

theorem two_pow_pos (j : Nat) : 0 < 2 ^ (10 * j) := Nat.pow_pos (by decide)

theorem mantissa_mul (n j : Nat) : mantissa (n * 2 ^ (10 * j)) j = n :=
  rounded_mul_self n (two_pow_pos j) _

theorem mantissa_mono (h : c ≤ c') (j : Nat) : mantissa c j ≤ mantissa c' j := rounded_mono h _ _

theorem mantissa_zero (c : Nat) : mantissa c 0 = c := by
  simpa using mantissa_mul c 0

theorem abs_mantissa_sub (c j : Nat) :
    |mantissa c j * (2 ^ (10 * j) : Nat) - c| ≤ (2 ^ (10 * j) : Nat) / 20 := by
  have hunit : (0 : ℚ) < (2 ^ (10 * j) : Nat) := by exact_mod_cast two_pow_pos j
  rcases Nat.eq_zero_or_pos j with rfl | hj
  · rw [mantissa_zero]
    norm_num
  · have hround := abs_rounded_sub (two_pow_pos j) c (min j 1)
    rw [← mantissa, Nat.min_eq_right hj, pow_one] at hround
    have hscale : mantissa c j * (2 ^ (10 * j) : Nat) - c =
        (mantissa c j - c / (2 ^ (10 * j) : Nat)) * (2 ^ (10 * j) : Nat) := by
      field_simp
    rw [hscale, abs_mul, abs_of_pos hunit]
    calc |mantissa c j - c / (2 ^ (10 * j) : Nat)| * (2 ^ (10 * j) : Nat)
        ≤ 1 / (2 * 10) * (2 ^ (10 * j) : Nat) := mul_le_mul_of_nonneg_right hround hunit.le
      _ = (2 ^ (10 * j) : Nat) / 20 := by ring

theorem Fills.one_le_mantissa (h : Fills c j) : 1 ≤ mantissa c j := by
  have hle := mantissa_mono (c := 1 * 2 ^ (10 * j)) (by simpa using h.le) j
  rw [mantissa_mul] at hle
  exact_mod_cast hle

/-- Rounding up stops at what the next unit stands for. -/
theorem Fills.mantissa_le (h : Fills c j) (hj : j ≠ 4) : mantissa c j ≤ 2 ^ 10 := by
  have hlt := h.lt hj
  rw [Nat.add_comm, Nat.pow_add] at hlt
  have hle := mantissa_mono hlt.le j
  rw [mantissa_mul] at hle
  exact_mod_cast hle

theorem Fills.mono (h : Fills c j) (h' : Fills c' i) (hc : c ≤ c') : j ≤ i := by
  by_contra hlt
  have hi : i ≠ 4 := by
    have := h.le_last
    omega
  have hpow : 2 ^ (10 * i + 10) ≤ 2 ^ (10 * j) := Nat.pow_le_pow_right (by decide) (by omega)
  have := h.le
  have := h'.lt hi
  omega

theorem Fills.value_mono (h : Fills c j) (h' : Fills c' i) (hc : c ≤ c') :
    mantissa c j * (2 ^ (10 * j) : Nat) ≤ mantissa c' i * (2 ^ (10 * i) : Nat) := by
  have hunit (j : Nat) : (0 : ℚ) ≤ (2 ^ (10 * j) : Nat) := Nat.cast_nonneg _
  rcases Nat.eq_or_lt_of_le (h.mono h' hc) with rfl | hlt
  · exact mul_le_mul_of_nonneg_right (mantissa_mono hc j) (hunit j)
  · have hj : j ≠ 4 := by
      have := h'.le_last
      omega
    have hpow : 2 ^ 10 * 2 ^ (10 * j) ≤ 2 ^ (10 * i) := by
      rw [← Nat.pow_add]
      exact Nat.pow_le_pow_right (by decide) (by omega)
    calc mantissa c j * (2 ^ (10 * j) : Nat)
        ≤ 2 ^ 10 * (2 ^ (10 * j) : Nat) :=
          mul_le_mul_of_nonneg_right (h.mantissa_le hj) (hunit j)
      _ ≤ 1 * (2 ^ (10 * i) : Nat) := by rw [one_mul]; exact_mod_cast hpow
      _ ≤ mantissa c' i * (2 ^ (10 * i) : Nat) :=
          mul_le_mul_of_nonneg_right h'.one_le_mantissa (hunit i)

theorem Fills.isLargest (h : Fills c j) :
    2 ^ (10 * j) ∈ sizes.map Prod.snd ∧ ∀ size ∈ sizes.map Prod.snd, size ≤ c →
      size ≤ 2 ^ (10 * j) := by
  have htable : ∀ i < 5, 2 ^ (10 * i) ∈ sizes.map Prod.snd := by decide
  have hpowers : ∀ size ∈ sizes.map Prod.snd, ∃ i < 5, size = 2 ^ (10 * i) := by decide
  refine ⟨htable j (Nat.lt_succ_of_le h.le_last), fun size hsize hle => ?_⟩
  obtain ⟨i, hi, rfl⟩ := hpowers size hsize
  refine Nat.pow_le_pow_right (by decide) (Nat.mul_le_mul_left 10 ?_)
  by_contra hlt
  have hpow : 2 ^ (10 * j + 10) ≤ 2 ^ (10 * i) := Nat.pow_le_pow_right (by decide) (by omega)
  have := h.lt (by omega)
  omega

end Reading

/-- The text of a count is found before the units run out. It is in the largest unit that does not
exceed the count, reads as the count up to one twentieth of the unit, for bytes exactly, and that of
a greater count does not read as less. -/
theorem humanBytes_faithful {n m : Int} (hn : 1 ≤ n) (hnm : n ≤ m) (hm : m < 2 ^ 53) :
    ∃ s t a b u v, humanBytes (some n) = .ok s ∧ humanBytes (some m) = .ok t ∧
      reading? s = some (a, u) ∧ reading? t = some (b, v) ∧
      |a * u - n| ≤ u / 20 ∧ (u = 1 → a = n) ∧
      (u ∈ sizes.map Prod.snd ∧ u ≤ n ∧ ∀ size ∈ sizes.map Prod.snd, (size : Int) ≤ n → size ≤ u) ∧
      a * u ≤ b * v ∧ inUnits lastUnit (ofInt n) units = some s := by
  lift n to ℕ using by omega
  lift m to ℕ using by omega
  obtain ⟨j, s, hfills, hunits, htext, hreading⟩ := exists_text (c := n) (by omega) (by omega)
  obtain ⟨i, t, hfills', -, htext', hreading'⟩ := exists_text (c := m) (by omega) (by omega)
  obtain ⟨hmem, hlargest⟩ := hfills.isLargest
  refine ⟨s, t, _, _, _, _, htext, htext', hreading, hreading', ?_, fun hone => ?_,
    ⟨hmem, by exact_mod_cast hfills.le, fun size hsize hle =>
      hlargest size hsize (by exact_mod_cast hle)⟩,
    hfills.value_mono hfills' (by omega), hunits⟩
  · exact_mod_cast abs_mantissa_sub n j
  · obtain rfl : j = 0 := by
      by_contra hj
      exact absurd hone (Nat.one_lt_two_pow (by omega)).ne'
    exact_mod_cast mantissa_zero n

/-- Just below a mebibyte the mantissa is carried up to 1024. -/
theorem humanBytes_faithful_sample :
    humanBytes (some 1048575) = .ok "1024.0KiB" ∧ humanBytes (some 1048576) = .ok "1.0MiB" ∧
    ∃ a b u v, reading? "1024.0KiB" = some (a, u) ∧ reading? "1.0MiB" = some (b, v) ∧
      |a * u - 1048575| ≤ u / 20 ∧ a * u ≤ b * v := by
  have hn : humanBytes (some 1048575) = .ok "1024.0KiB" := by decide +kernel
  have hm : humanBytes (some 1048576) = .ok "1.0MiB" := by decide +kernel
  obtain ⟨s, t, a, b, u, v, hs, ht, hreading, hreading', hnear, -, -, hle, -⟩ :=
    humanBytes_faithful (n := 1048575) (m := 1048576) (by decide) (by decide) (by decide)
  cases hn.symm.trans hs
  cases hm.symm.trans ht
  exact ⟨hn, hm, a, b, u, v, hreading, hreading', by exact_mod_cast hnear, hle⟩

end MediaCatalog.Report
