import Mathlib.Data.List.Basic
import MediaCatalog.Number.Reader

namespace MediaCatalog

namespace Text

namespace Ranges

variable {t u : Ranges} {n : Nat}

theorem has_iff : t.has n ↔ ∃ r ∈ t, r.1 ≤ n ∧ n ≤ r.2 := by
  simp [has]

theorem has_eq_isSome (t : Ranges) (n : Nat) : t.has n = (t.find? n).isSome := by
  rw [Bool.eq_iff_iff, find?, List.find?_isSome, has_iff]
  simp

/-- No range of the one table meets one of the other. -/
def Apart (t u : Ranges) : Prop := ∀ r ∈ t, ∀ s ∈ u, r.2 < s.1 ∨ s.2 < r.1

instance (t u : Ranges) : Decidable (t.Apart u) :=
  inferInstanceAs (Decidable (∀ r ∈ t, ∀ s ∈ u, r.2 < s.1 ∨ s.2 < r.1))

theorem Apart.not_has (h : t.Apart u) (hn : t.has n) : u.has n = false := by
  rw [Bool.eq_false_iff]
  intro hu
  obtain ⟨r, hr, hrn⟩ := has_iff.1 hn
  obtain ⟨s, hs, hsn⟩ := has_iff.1 hu
  rcases h r hr s hs with hrs | hrs <;> omega

end Ranges

section Characters

variable {c : Char}

theorem not_isBlank (h : isDigit c) : isBlank c = false := by
  rcases Bool.or_eq_true_iff.1 h with h | h
  · exact (by decide : decimalRanges.Apart blankRanges).not_has h
  · exact (by decide : otherDigitRanges.Apart blankRanges).not_has h

theorem isDecimal_eq_isSome (c : Char) : isDecimal c = (decimalValue? c).isSome := by
  rw [isDecimal, Ranges.has_eq_isSome, decimalValue?, Option.isSome_map]

theorem decimalValue?_lt {d : Nat} (h : decimalValue? c = some d) : d < 10 := by
  obtain ⟨r, -, rfl⟩ := Option.map_eq_some_iff.1 h
  exact Nat.mod_lt _ (by decide)

theorem isDecimal_of_ascii (h : c.isDigit) : isDecimal c := by
  rw [Char.isDigit, Bool.and_eq_true, decide_eq_true_eq, decide_eq_true_eq] at h
  exact Ranges.has_iff.2 ⟨(0x30, 0x39), by decide, h.1, h.2⟩

def ascii (c : Char) : Char :=
  match decimalValue? c with
  | some d => Char.ofNat (48 + d)
  | none => c

theorem isDigit_ofNat : ∀ d < 10, (Char.ofNat (48 + d)).isDigit := by decide

theorem toNat_ofNat : ∀ d < 10, (Char.ofNat (48 + d)).toNat = 48 + d := by decide

theorem isDigit_ascii (c : Char) : (ascii c).isDigit = isDecimal c := by
  rw [isDecimal_eq_isSome, ascii]
  cases h : decimalValue? c with
  | some d => exact isDigit_ofNat d (decimalValue?_lt h)
  | none =>
      rw [Option.isSome_none, Bool.eq_false_iff]
      intro hc
      have hdecimal := isDecimal_of_ascii hc
      rw [isDecimal_eq_isSome, h] at hdecimal
      cases hdecimal

theorem ascii_ne {s : Char} (h : isDigit c) (hs : isDigit s = false) (hs' : s.isDigit = false) :
    ascii c ≠ s := by
  rintro rfl
  rw [isDigit_ascii] at hs'
  have hnone : decimalValue? c = none := by
    rwa [isDecimal_eq_isSome, Option.isSome_eq_false_iff, Option.isNone_iff_eq_none] at hs'
  rw [ascii, hnone] at hs
  cases hs.symm.trans h

end Characters

/-- The number that decimal digits of any scripts spell. -/
def decimalNumber (s : List Char) : Nat :=
  s.foldl (fun n c => 10 * n + (decimalValue? c).getD 0) 0

/-- Decimal digits only, and not too many of them. -/
def IsNumeral (s : String) : Prop :=
  s.toList.all isDecimal ∧ s.toList.length ≤ Number.maxDigits

instance (s : String) : Decidable (IsNumeral s) :=
  inferInstanceAs (Decidable (s.toList.all isDecimal ∧ s.toList.length ≤ Number.maxDigits))

theorem trim_eq_self {isOut : Char → Bool} {s : List Char} (h : ∀ c ∈ s, isOut c = false) :
    trim isOut s = s := by
  have hdrop (t : List Char) (ht : ∀ c ∈ t, isOut c = false) : t.dropWhile isOut = t := by
    cases t with
    | nil => rfl
    | cons c t => exact List.dropWhile_cons_of_neg (by simp [ht c List.mem_cons_self])
  rw [trim, trimLeft, trimRight, hdrop s h, hdrop s.reverse (by simpa using h),
    List.reverse_reverse]

end Text

namespace Number

open Text

variable {s : List Char}

theorem plain_of_digits (h : ∀ c ∈ s, isDigit c) : plain s = s.map ascii := by
  rw [plain, trim_eq_self fun c hc => by rw [isNumberBlank, not_isBlank (h c hc), Bool.false_and]]
  rfl

theorem splitSign_of_digits (h : ∀ c ∈ s, isDigit c) :
    splitSign (s.map ascii) = (false, s.map ascii) := by
  cases s with
  | nil => rfl
  | cons c s =>
      have hc := h c List.mem_cons_self
      rw [List.map_cons, splitSign]
      · exact fun _ he => ascii_ne hc (by decide) (by decide) (List.cons.inj he).1
      · exact fun _ he => ascii_ne hc (by decide) (by decide) (List.cons.inj he).1

theorem joinGroups_of_digits (h : ∀ c ∈ s, isDigit c) (afterDigit : Bool) :
    joinGroups afterDigit (s.map ascii) = some (s.map ascii) := by
  induction s generalizing afterDigit with
  | nil => rfl
  | cons c s ih =>
      obtain ⟨hc, hs⟩ := List.forall_mem_cons.1 h
      rw [List.map_cons, joinGroups, ih hs]
      · rfl
      · exact fun he => ascii_ne hc (by decide) (by decide) he

theorem digitsValue_map_ascii (h : s.all isDecimal) :
    digitsValue (s.map ascii) = decimalNumber s := by
  rw [digitsValue, decimalNumber, List.foldl_map]
  refine List.foldl_ext _ _ 0 fun n c hc => ?_
  have hdecimal : isDecimal c := List.all_eq_true.1 h c hc
  rw [isDecimal_eq_isSome] at hdecimal
  obtain ⟨d, hd⟩ := Option.isSome_iff_exists.1 hdecimal
  rw [ascii, hd]
  dsimp only [Option.getD_some]
  rw [toNat_ofNat d (decimalValue?_lt hd), Nat.add_sub_cancel_left]

theorem int?_of_allDigits {t : String} (h : allDigits t) :
    int? t = if IsNumeral t then some (decimalNumber t.toList : Int) else none := by
  obtain ⟨hne, hdigits⟩ := Bool.and_eq_true_iff.1 h
  have hall : ∀ c ∈ t.toList, isDigit c := List.all_eq_true.1 hdigits
  have hnil : (t.toList.map ascii != []) = true := by
    simpa using hne
  have hascii : (t.toList.map ascii).all Char.isDigit = t.toList.all isDecimal := by
    rw [List.all_map]
    exact congrArg (t.toList.all ·) (funext isDigit_ascii)
  rw [int?, plain_of_digits hall, splitSign_of_digits hall]
  dsimp only
  rw [joinGroups_of_digits hall, Option.bind_eq_bind, Option.bind_some, hnil, hascii,
    List.length_map, Bool.true_and]
  by_cases hnumeral : IsNumeral t
  · rw [if_pos hnumeral, digitsValue_map_ascii hnumeral.1, if_pos]
    · rfl
    · rw [hnumeral.1, decide_eq_true hnumeral.2, Bool.and_self]
  · rw [if_neg hnumeral, if_neg]
    exact fun hboth => hnumeral ((Bool.and_eq_true_iff.1 hboth).imp_right of_decide_eq_true)

end Number

end MediaCatalog
