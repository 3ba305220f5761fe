import MediaCatalog.Preview.Cache
import MediaCatalog.Proofs.FileSystem.Reach

namespace MediaCatalog

section Numbers

theorem isDigit_of_mem_natText {n : Nat} {c : Char} (h : c ∈ (natText n).toList) : c.isDigit := by
  rw [natText, String.toList_ofList] at h
  exact Nat.isDigit_of_mem_toDigits (by decide) (by decide) h

theorem natText_injective {n m : Nat} (h : natText n = natText m) : n = m := by
  have hdigits : Nat.toDigits 10 n = Nat.toDigits 10 m := String.ofList_injective h
  calc n = Nat.ofDigitChars 10 (Nat.toDigits 10 n) 0 := Nat.ofDigitChars_ten_toDigits.symm
    _ = Nat.ofDigitChars 10 (Nat.toDigits 10 m) 0 := by rw [hdigits]
    _ = m := Nat.ofDigitChars_ten_toDigits

theorem toList_intText (n : Int) :
    (intText n).toList =
      if n < 0 then '-' :: (natText n.natAbs).toList else (natText n.natAbs).toList := by
  rw [intText]
  split
  · exact String.toList_append
  · rfl

theorem isDigit_of_mem_intText {n : Int} {c : Char} (h : c ∈ (intText n).toList) :
    c = '-' ∨ c.isDigit := by
  rw [toList_intText] at h
  split at h
  · exact (List.mem_cons.1 h).imp_right isDigit_of_mem_natText
  · exact .inr (isDigit_of_mem_natText h)

theorem sign_not_mem_natText (n : Nat) : '-' ∉ (natText n).toList :=
  fun h => absurd (isDigit_of_mem_natText h) (by decide)

theorem intText_injective {n m : Int} (h : intText n = intText m) : n = m := by
  have hchars := congrArg String.toList h
  rw [toList_intText, toList_intText] at hchars
  split at hchars
  · split at hchars
    · have := natText_injective (String.toList_inj.1 (List.cons.inj hchars).2)
      omega
    · exact absurd (hchars ▸ List.mem_cons_self) (sign_not_mem_natText _)
  · split at hchars
    · exact absurd (hchars ▸ List.mem_cons_self) (sign_not_mem_natText _)
    · have := natText_injective (String.toList_inj.1 hchars)
      omega

end Numbers

namespace Preview

theorem append_separator_inj {α : Type} {c : α} {a a' b b' : List α} (hb : c ∉ b) (hb' : c ∉ b')
    (h : a ++ c :: b = a' ++ c :: b') : a = a' ∧ b = b' := by
  rcases List.append_eq_append_iff.1 h with ⟨s, rfl, hs⟩ | ⟨s, rfl, hs⟩
  · cases s with
    | nil => exact ⟨(List.append_nil a).symm, (List.cons.inj hs).2⟩
    | cons d s =>
        obtain ⟨-, rfl⟩ := List.cons.inj hs
        exact absurd (List.mem_append_right s List.mem_cons_self) hb
  · cases s with
    | nil => exact ⟨List.append_nil a', (List.cons.inj hs).2.symm⟩
    | cons d s =>
        obtain ⟨-, rfl⟩ := List.cons.inj hs
        exact absurd (List.mem_append_right s List.mem_cons_self) hb'

theorem separator_not_mem_intText (n : Int) : '|' ∉ (intText n).toList := by
  intro h
  rcases isDigit_of_mem_intText h with h | h <;> exact absurd h (by decide)

theorem keyChars_inj {s t : List Char} {m n h k : Int} (hkey : keyChars s m h = keyChars t n k) :
    s = t ∧ m = n ∧ h = k := by
  have hsplit (s : List Char) (m h : Int) : keyChars s m h =
      (s ++ '|' :: (intText m).toList) ++ '|' :: ("h=".toList ++ (intText h).toList) := by
    rw [keyChars, List.append_assoc, List.append_assoc, List.cons_append]
    rfl
  have hfree (h : Int) : '|' ∉ "h=".toList ++ (intText h).toList := by
    rw [List.mem_append, not_or]
    exact ⟨by decide, separator_not_mem_intText h⟩
  rw [hsplit, hsplit] at hkey
  obtain ⟨hfront, hback⟩ := append_separator_inj (hfree h) (hfree k) hkey
  obtain ⟨hpath, htime⟩ :=
    append_separator_inj (separator_not_mem_intText m) (separator_not_mem_intText n) hfront
  exact ⟨hpath, intText_injective (String.toList_inj.1 htime),
    intText_injective (String.toList_inj.1 (List.append_cancel_left hback))⟩

section Names

theorem digitChar_ne_slash : ∀ n < 16, Nat.digitChar n ≠ '/' := by decide

theorem slash_not_mem_toDigits (n : Nat) : '/' ∉ Nat.toDigits 16 n := by
  induction n using Nat.strongRecOn with
  | ind n ih =>
      rw [Nat.toDigits_eq_if (by decide)]
      split
      · rw [List.mem_singleton]
        exact (digitChar_ne_slash n ‹_›).symm
      · rename_i hn
        rw [List.mem_append, List.mem_singleton, not_or]
        exact ⟨ih _ (Nat.div_lt_self (by omega) (by decide)),
          (digitChar_ne_slash _ (Nat.mod_lt n (by decide))).symm⟩

theorem slash_not_mem_hexText (width n : Nat) : '/' ∉ Text.hexText width n := by
  rw [Text.hexText, List.mem_append, not_or]
  exact ⟨fun h => absurd (List.eq_of_mem_replicate h) (by decide), slash_not_mem_toDigits n⟩

theorem slash_not_mem_digest (text : String) : '/' ∉ (digest text).toList := by
  rw [digest, Words.hex, String.toList_ofList, List.mem_flatMap]
  rintro ⟨x, -, hx⟩
  exact slash_not_mem_hexText 8 _ hx

end Names

end Preview

end MediaCatalog
