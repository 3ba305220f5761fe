namespace MediaCatalog.StableSort

variable {α β : Type} {le : α → α → Bool} {R : α → α → Prop}

/-- Sorting puts a list in order, and keeps the order in which equals came. -/
theorem pairwise_mergeSort (trans : ∀ a b c, le a b → le b c → le a c)
    (total : ∀ a b, le a b || le b a) {l : List α} (h : l.Pairwise R) :
    (l.mergeSort le).Pairwise fun a b => le a b ∧ (le b a → R a b) := by
  induction l with
  | nil => simp
  | cons a l ih =>
      obtain ⟨ha, hl⟩ := List.pairwise_cons.1 h
      obtain ⟨before, behind, hsort, hrest, hbefore⟩ := List.mergeSort_cons trans total a l
      have hsorted := List.pairwise_mergeSort trans total (a :: l)
      have hperm := List.mergeSort_perm l le
      have hsplit := ih hl
      rw [hrest] at hperm hsplit
      rw [hsort] at hsorted ⊢
      obtain ⟨h₁, h₂, hcross⟩ := List.pairwise_append.1 hsplit
      obtain ⟨-, htail, hhead⟩ := List.pairwise_append.1 hsorted
      refine List.pairwise_append.2 ⟨h₁, List.pairwise_cons.2 ⟨fun b hb => ?_, h₂⟩, ?_⟩
      · have hbl : b ∈ l := hperm.mem_iff.1 (List.mem_append_right _ hb)
        exact ⟨(List.pairwise_cons.1 htail).1 b hb, fun _ => ha b hbl⟩
      · intro b hb c hc
        rcases List.mem_cons.1 hc with rfl | hc
        · have hnot : le c b = false := by simpa using hbefore b hb
          exact ⟨hhead b hb c (by simp), fun hcb => absurd hcb (by simp [hnot])⟩
        · exact hcross b hb c hc

theorem mergeSort_congr {le' : α → α → Bool} {l : List α}
    (h : ∀ a ∈ l, ∀ b ∈ l, le a b = le' a b) : l.mergeSort le = l.mergeSort le' := by
  have hmap := List.map_mergeSort (f := id) h
  rwa [List.map_id, List.map_id] at hmap

section Key

variable [DecidableEq β] {key : α → β} {xs ys : List α}

theorem filter_key_mergeSort (trans : ∀ a b c, le a b → le b c → le a c)
    (total : ∀ a b, le a b || le b a) (htie : ∀ a b, key a = key b → le a b) (k : β) (l : List α) :
    (l.mergeSort le).filter (key · = k) = l.filter (key · = k) := by
  have htied : (l.filter (key · = k)).Pairwise fun a b => le a b := by
    refine List.pairwise_of_forall_mem_list fun a ha b hb => htie a b ?_
    have hak := of_decide_eq_true (List.mem_filter.1 ha).2
    have hbk := of_decide_eq_true (List.mem_filter.1 hb).2
    rw [hak, hbk]
  have hsub := (List.sublist_mergeSort trans total htied List.filter_sublist).filter (key · = k)
  rw [List.filter_filter] at hsub
  simp only [Bool.and_self] at hsub
  exact (hsub.eq_of_length ((List.mergeSort_perm l le).filter _).length_eq.symm).symm

theorem filter_key_merge (trans : ∀ a b c, le a b → le b c → le a c)
    (htie : ∀ a b, key a = key b → le a b) (hxs : xs.Pairwise fun a b => le a b) (k : β) :
    (xs.merge ys le).filter (key · = k) = xs.filter (key · = k) ++ ys.filter (key · = k) := by
  induction xs generalizing ys with
  | nil => simp
  | cons x xs ih =>
      obtain ⟨hx, hxs'⟩ := List.pairwise_cons.1 hxs
      induction ys with
      | nil => simp
      | cons y ys ihys =>
          rw [List.cons_merge_cons]
          by_cases hle : le x y
          · rw [if_pos hle, List.filter_cons, List.filter_cons, ih hxs']
            split <;> rfl
          rw [if_neg hle, List.filter_cons, ihys, List.filter_cons (x := y)]
          split
          · rename_i hy
            have hnone : (x :: xs).filter (key · = k) = [] := by
              refine List.filter_eq_nil_iff.2 fun a ha hak => hle ?_
              have hkey : key a = key y := (of_decide_eq_true hak).trans (of_decide_eq_true hy).symm
              have hay : le a y := htie a y hkey
              rcases List.mem_cons.1 ha with rfl | ha
              · exact hay
              · exact trans x a y (hx a ha) hay
            rw [hnone]
            rfl
          · rfl

theorem eq_of_filter_key (hkey : ∀ a b, le a b → le b a → key a = key b)
    (hxs : xs.Pairwise fun a b => le a b) (hys : ys.Pairwise fun a b => le a b)
    (h : ∀ k, xs.filter (key · = k) = ys.filter (key · = k)) : xs = ys := by
  have hmem {l l' : List α} (hl : ∀ k, l.filter (key · = k) = l'.filter (key · = k)) {a : α}
      (ha : a ∈ l) : a ∈ l' := by
    have hkeyed : a ∈ l.filter (key · = key a) := List.mem_filter.2 ⟨ha, decide_eq_true rfl⟩
    exact (List.mem_filter.1 (hl (key a) ▸ hkeyed)).1
  induction xs generalizing ys with
  | nil =>
      cases ys with
      | nil => rfl
      | cons y ys => exact absurd (hmem (fun k => (h k).symm) List.mem_cons_self) List.not_mem_nil
  | cons x xs ih =>
      cases ys with
      | nil => exact absurd (hmem h List.mem_cons_self) List.not_mem_nil
      | cons y ys =>
          obtain ⟨hx, hxs'⟩ := List.pairwise_cons.1 hxs
          obtain ⟨hy, hys'⟩ := List.pairwise_cons.1 hys
          have hsame : key x = key y := by
            rcases List.mem_cons.1 (hmem h List.mem_cons_self) with rfl | hxy
            · rfl
            rcases List.mem_cons.1 (hmem (fun k => (h k).symm) List.mem_cons_self) with rfl | hyx
            · rfl
            exact hkey x y (hx y hyx) (hy x hxy)
          have hheads := h (key y)
          rw [List.filter_cons, if_pos (decide_eq_true hsame), List.filter_cons,
            if_pos (decide_eq_true rfl)] at hheads
          obtain ⟨rfl, -⟩ := List.cons.inj hheads
          refine congrArg (x :: ·) (ih hxs' hys' fun k => ?_)
          have hk := h k
          rw [List.filter_cons, List.filter_cons] at hk
          split at hk
          · exact (List.cons.inj hk).2
          · exact hk

variable (trans : ∀ a b c, le a b → le b c → le a c) (total : ∀ a b, le a b || le b a)
  (htie : ∀ a b, key a = key b → le a b) (hkey : ∀ a b, le a b → le b a → key a = key b)
include trans total htie hkey

theorem filter_mergeSort (p : α → Bool) (l : List α) :
    (l.mergeSort le).filter p = (l.filter p).mergeSort le := by
  have hsorted (l : List α) : (l.mergeSort le).Pairwise fun a b => le a b :=
    List.pairwise_mergeSort trans total l
  refine eq_of_filter_key hkey ((hsorted l).filter p) (hsorted _) fun k => ?_
  rw [filter_key_mergeSort trans total htie, List.filter_filter, List.filter_filter]
  simp only [Bool.and_comm]
  rw [← List.filter_filter, ← List.filter_filter, filter_key_mergeSort trans total htie]

/-- Sorting two sorted lists together merges them; of equals the first list's go first. -/
theorem mergeSort_append (hxs : xs.Pairwise fun a b => le a b)
    (hys : ys.Pairwise fun a b => le a b) : (xs ++ ys).mergeSort le = xs.merge ys le := by
  refine eq_of_filter_key hkey (List.pairwise_mergeSort trans total _)
    (List.pairwise_merge trans total xs ys hxs hys) fun k => ?_
  rw [filter_key_mergeSort trans total htie, filter_key_merge trans htie hxs, List.filter_append]

end Key

section Descending

variable (key : α → Int) {a b : α}

def descending (a b : α) : Bool := key b ≤ key a

variable {key} in
theorem descending_iff : descending key a b ↔ key b ≤ key a := decide_eq_true_iff

theorem descending_trans (a b c : α) (hab : descending key a b) (hbc : descending key b c) :
    descending key a c :=
  descending_iff.2 (Int.le_trans (descending_iff.1 hbc) (descending_iff.1 hab))

theorem descending_total (a b : α) : descending key a b || descending key b a := by
  rw [Bool.or_eq_true, descending_iff, descending_iff]
  exact Int.le_total (key b) (key a)

theorem descending_of_eq (a b : α) (h : key a = key b) : descending key a b :=
  descending_iff.2 (Int.le_of_eq h.symm)

theorem eq_of_descending (a b : α) (hab : descending key a b) (hba : descending key b a) :
    key a = key b :=
  Int.le_antisymm (descending_iff.1 hba) (descending_iff.1 hab)

end Descending

end MediaCatalog.StableSort
