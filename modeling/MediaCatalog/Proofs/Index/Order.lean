import Mathlib.Data.List.Lex
import Mathlib.Data.Prod.Lex
import MediaCatalog.Index.Table
import MediaCatalog.Proofs.Number.Binary64
import MediaCatalog.Proofs.StableSort

namespace MediaCatalog.Index

namespace Cell

abbrev Key := ℕ ×ₗ WithBot (WithTop ℚ) ×ₗ List ℕ

def key (c : Cell) : Key := toLex (c.rank, toLex (c.number.position, weights c.bytes))

variable {a b c : Cell}

theorem number_ne_nan (h : c.rank ≠ 0) : c.number ≠ .nan := by
  intro hnan
  cases c with
  | null => exact h rfl
  | int n => cases hnan
  | real x =>
      obtain rfl : x = .nan := hnan
      exact h rfl
  | text s | garbled t | blob bytes => cases hnan

theorem position_of_rank (h : c.rank ≠ 1) : c.number.position = 0 := by
  have hzero : Binary64.zero.position = 0 := by simp [Binary64.zero, Binary64.position]
  cases c with
  | int n => exact absurd rfl h
  | real x =>
      cases x with
      | nan => rfl
      | inf neg | finite neg m q => exact absurd rfl h
  | null | text s | garbled t | blob bytes => exact hzero

theorem bytes_of_rank (h : c.rank < 2) : c.bytes = [] := by
  cases c with
  | null | int n | real x => rfl
  | text s | garbled t | blob bytes => simp [rank] at h

theorem rank_eq_zero (h : c.rank = 0) : c = .null ∨ c = .real .nan := by
  cases c with
  | null => exact .inl rfl
  | real x =>
      cases x with
      | nan => exact .inr rfl
      | inf neg | finite neg m q => cases h
  | int n | text s | garbled t | blob bytes => cases h

theorem number_lt_iff (h : a.rank = b.rank) :
    a.number.lt b.number ↔ a.number.position < b.number.position := by
  by_cases ha : a.rank = 0
  · have hnot : ¬ a.number.lt b.number := by
      rcases rank_eq_zero ha with rfl | rfl
      · rcases rank_eq_zero (h ▸ ha) with rfl | rfl
        · simp [Binary64.lt_self]
        · exact Bool.false_ne_true
      · exact Bool.false_ne_true
    rw [position_of_rank (by omega), position_of_rank (c := b) (by omega)]
    exact iff_of_false hnot (lt_irrefl 0)
  · exact Binary64.lt_iff_position (number_ne_nan ha) (number_ne_nan (h ▸ ha))

theorem lt_iff : a.lt b ↔ a.key < b.key := by
  rw [lt, key, key, Prod.Lex.toLex_lt_toLex, Prod.Lex.toLex_lt_toLex]
  by_cases h : a.rank = b.rank
  · rw [if_pos h, Bool.or_eq_true, number_lt_iff h, decide_eq_true_iff]
    by_cases hnumber : a.rank = 1
    · rw [bytes_of_rank (by omega), bytes_of_rank (c := b) (by omega)]
      simp [h]
    · rw [position_of_rank hnumber, position_of_rank (h ▸ hnumber)]
      simp [h]
  · simp [h]

theorem position_int (n : Int) : (Cell.int n).number.position = ((n : ℚ) : WithTop ℚ) := by
  rw [number, Binary64.position, zpow_zero, mul_one, WithBot.coe_inj, WithTop.coe_inj]
  by_cases hn : n < 0
  · rw [decide_eq_true hn, if_pos rfl, ← Int.cast_natCast, Int.natCast_natAbs, abs_of_neg hn]
    simp
  · rw [decide_eq_false hn, if_neg Bool.false_ne_true, ← Int.cast_natCast, Int.natCast_natAbs,
      abs_of_nonneg (not_lt.1 hn), one_mul]

theorem key_int_le_iff {m n : Int} : (Cell.int m).key ≤ (Cell.int n).key ↔ m ≤ n := by
  simp [key, Prod.Lex.toLex_le_toLex, position_int, rank, bytes, Int.le_iff_lt_or_eq]

theorem key_lt_iff_of_rank (h : a.rank ≠ b.rank) : a.key < b.key ↔ a.rank < b.rank := by
  simp [key, Prod.Lex.toLex_lt_toLex, h]

def titleKey (c : Cell) : ℕ ×ₗ WithBot (WithTop ℚ) ×ₗ List ℕ ×ₗ ℕ :=
  toLex (c.rank, toLex (c.number.position,
    toLex (if c.isText then (Table.foldedTitle c.bytes, c.bytes.length) else (weights c.bytes, 0))))

theorem titleKey_lt_iff_of_rank (h : a.rank ≠ b.rank) :
    a.titleKey < b.titleKey ↔ a.rank < b.rank := by
  simp [titleKey, Prod.Lex.toLex_lt_toLex, h]

theorem titleLt_iff : Table.titleLt a b ↔ a.titleKey < b.titleKey := by
  by_cases h : a.rank = b.rank
  · have htext : b.isText = a.isText := by rw [isText, isText, h]
    rw [Table.titleLt, titleKey, titleKey, htext]
    cases ha : a.isText with
    | true =>
        have hrank : a.rank = 2 := by simpa [isText] using ha
        simp [Prod.Lex.toLex_lt_toLex, h, position_of_rank, h ▸ hrank]
    | false =>
        simp only [Bool.and_self, Bool.false_eq_true, if_false]
        rw [lt_iff, key, key, h]
        simp [Prod.Lex.toLex_lt_toLex]
  · have hother : ¬ (a.isText && b.isText) := by
      simp only [isText, Bool.and_eq_true, beq_iff_eq]
      omega
    rw [Table.titleLt, if_neg hother, lt_iff, key_lt_iff_of_rank h, titleKey_lt_iff_of_rank h]

end Cell

namespace Entry

def folderKey (e : Entry) : (ℕ ×ₗ WithBot (WithTop ℚ) ×ₗ List ℕ ×ₗ ℕ) ×ₗ Cell.Keyᵒᵈ :=
  toLex (e.bucketTitle.titleKey, OrderDual.toDual e.takenAt.key)

variable {e f : Entry}

theorem older_iff : ¬ e.takenAt.lt f.takenAt ↔ f.takenAt.key ≤ e.takenAt.key := by
  rw [Cell.lt_iff, not_lt]

theorem folderKey_le_iff : e.folderKey ≤ f.folderKey ↔
    e.bucketTitle.titleKey < f.bucketTitle.titleKey ∨
      e.bucketTitle.titleKey = f.bucketTitle.titleKey ∧ f.takenAt.key ≤ e.takenAt.key := by
  rw [folderKey, folderKey, Prod.Lex.toLex_le_toLex, OrderDual.toDual_le_toDual]

theorem newestFirst_iff : Table.newestFirst e f ↔ f.takenAt.key ≤ e.takenAt.key := by
  rw [Table.newestFirst, Bool.not_eq_true', ← Bool.not_eq_true, older_iff]

theorem folderOrder_iff : Table.folderOrder e f ↔ e.folderKey ≤ f.folderKey := by
  rw [Table.folderOrder, Bool.or_eq_true, Bool.and_eq_true, Bool.not_eq_true', Bool.not_eq_true',
    ← Bool.not_eq_true, ← Bool.not_eq_true, Cell.titleLt_iff, Cell.titleLt_iff, older_iff,
    folderKey_le_iff, not_lt]
  constructor
  · rintro (hlt | ⟨hle, htime⟩)
    · exact .inl hlt
    · exact hle.lt_or_eq.imp_right fun heq => ⟨heq, htime⟩
  · rintro (hlt | ⟨heq, htime⟩)
    · exact .inl hlt
    · exact .inr ⟨heq.le, htime⟩

end Entry

theorem pairwise_mergeSort_key {α κ : Type} [LinearOrder κ] {key : α → κ} {le : α → α → Bool}
    (h : ∀ a b, le a b ↔ key a ≤ key b) (l : List α) :
    (l.mergeSort le).Pairwise fun a b => key a ≤ key b := by
  refine (List.pairwise_mergeSort (fun a b c hab hbc => ?_) (fun a b => ?_) l).imp
    fun hab => (h _ _).1 hab
  · exact (h a c).2 (((h a b).1 hab).trans ((h b c).1 hbc))
  · rw [Bool.or_eq_true, h, h]
    exact le_total (key a) (key b)

namespace Table

theorem folderEntries_ordered (t : Table) (kind : Kind) :
    (t.folderEntries kind).Pairwise fun e f => e.folderKey ≤ f.folderKey :=
  pairwise_mergeSort_key (fun e f => Entry.folderOrder_iff (e := e) (f := f)) _

theorem itemEntries_ordered (t : Table) (kind : Kind) (b : Option String) :
    (t.itemEntries kind b).Pairwise fun e f => f.takenAt.key ≤ e.takenAt.key := by
  let newness (e : Entry) : Cell.Keyᵒᵈ := OrderDual.toDual e.takenAt.key
  have hnewness : ∀ e f, newestFirst e f ↔ newness e ≤ newness f := fun e f =>
    Entry.newestFirst_iff
  exact pairwise_mergeSort_key hnewness _

end Table

end MediaCatalog.Index
