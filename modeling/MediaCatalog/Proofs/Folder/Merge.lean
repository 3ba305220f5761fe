import MediaCatalog.Folder.Scan
import Mathlib.Tactic.Tauto

namespace MediaCatalog

variable {β : Type}

def FolderSummary.plus (s : FolderSummary β) (n : Int) : FolderSummary β :=
  { s with count := s.count + n }

theorem FolderSummary.plus_plus (s t u : FolderSummary β) :
    (s.plus t.count).plus u.count = s.plus (t.plus u.count).count := by
  simp only [plus, Int.add_assoc]

theorem FolderSummary.plus_plus_comm (s : FolderSummary β) (m n : Int) :
    (s.plus m).plus n = (s.plus n).plus m := by
  simp only [plus, Int.add_right_comm]

namespace FolderMap

def buckets (m : FolderMap β) : List β := m.map (·.bucketId)

@[simp] theorem buckets_nil : buckets ([] : FolderMap β) = [] := rfl

@[simp] theorem buckets_cons (s : FolderSummary β) (m : FolderMap β) :
    buckets (s :: m) = s.bucketId :: buckets m := rfl

theorem mem_buckets_of_mem {s : FolderSummary β} {m : FolderMap β} (h : s ∈ m) :
    s.bucketId ∈ m.buckets :=
  List.mem_map_of_mem h

variable [DecidableEq β]

theorem add_cons_of_eq {s t : FolderSummary β} (h : t.bucketId = s.bucketId) (m : FolderMap β) :
    add s (t :: m) = t.plus s.count :: m := by
  rw [add, if_pos h, FolderSummary.plus]

theorem add_cons_of_ne {s t : FolderSummary β} (h : t.bucketId ≠ s.bucketId) (m : FolderMap β) :
    add s (t :: m) = t :: add s m := by
  rw [add, if_neg h]

theorem add_of_not_mem {s : FolderSummary β} {m : FolderMap β} (h : s.bucketId ∉ m.buckets) :
    add s m = m ++ [s] := by
  induction m with
  | nil => rfl
  | cons t m ih =>
      simp only [buckets_cons, List.mem_cons, not_or] at h
      rw [add_cons_of_ne (Ne.symm h.1), ih h.2]
      rfl

def raised (s t : FolderSummary β) : FolderSummary β :=
  if t.bucketId = s.bucketId then t.plus s.count else t

theorem raised_bucketId (s t : FolderSummary β) : (raised s t).bucketId = t.bucketId := by
  rw [raised]
  split <;> rfl

theorem map_raised_of_not_mem {s : FolderSummary β} {m : FolderMap β} (h : s.bucketId ∉ m.buckets) :
    m.map (raised s) = m := by
  induction m with
  | nil => rfl
  | cons t m ih =>
      simp only [buckets_cons, List.mem_cons, not_or] at h
      rw [List.map_cons, ih h.2, raised, if_neg (Ne.symm h.1)]

theorem add_of_mem {s : FolderSummary β} {m : FolderMap β} (hn : m.buckets.Nodup)
    (h : s.bucketId ∈ m.buckets) : add s m = m.map (raised s) := by
  induction m with
  | nil => simp at h
  | cons t m ih =>
      rw [buckets_cons, List.nodup_cons] at hn
      rw [buckets_cons, List.mem_cons] at h
      obtain ⟨ht, hm⟩ := hn
      by_cases hts : t.bucketId = s.bucketId
      · have hs : s.bucketId ∉ buckets m := hts ▸ ht
        rw [add_cons_of_eq hts, List.map_cons, map_raised_of_not_mem hs, raised, if_pos hts]
      · have hs : s.bucketId ∈ buckets m := h.resolve_left (Ne.symm hts)
        rw [add_cons_of_ne hts, List.map_cons, ih hm hs, raised, if_neg hts]

theorem mem_buckets_add {s : FolderSummary β} {m : FolderMap β} {b : β} :
    b ∈ (add s m).buckets ↔ b ∈ m.buckets ∨ b = s.bucketId := by
  induction m with
  | nil => simp [add]
  | cons t m ih =>
      by_cases hts : t.bucketId = s.bucketId
      · rw [add_cons_of_eq hts, buckets_cons, buckets_cons, FolderSummary.plus, hts, List.mem_cons]
        tauto
      · rw [add_cons_of_ne hts, buckets_cons, buckets_cons, List.mem_cons, List.mem_cons, ih,
          or_assoc]

theorem add_add_of_mem {s u : FolderSummary β} {m : FolderMap β} (h : s.bucketId ∈ m.buckets) :
    add s (add u m) = add u (add s m) := by
  induction m with
  | nil => simp at h
  | cons t m ih =>
      rw [buckets_cons, List.mem_cons] at h
      have hplus (n : Int) : (t.plus n).bucketId = t.bucketId := rfl
      by_cases hs : t.bucketId = s.bucketId <;> by_cases hu : t.bucketId = u.bucketId
      · rw [add_cons_of_eq hu, add_cons_of_eq hs, add_cons_of_eq ((hplus _).trans hs),
          add_cons_of_eq ((hplus _).trans hu), FolderSummary.plus_plus_comm]
      · have hu' : (t.plus s.count).bucketId ≠ u.bucketId := hu
        rw [add_cons_of_ne hu, add_cons_of_eq hs, add_cons_of_eq hs, add_cons_of_ne hu']
      · have hs' : (t.plus u.count).bucketId ≠ s.bucketId := hs
        rw [add_cons_of_eq hu, add_cons_of_ne hs, add_cons_of_ne hs', add_cons_of_eq hu]
      · have hm : s.bucketId ∈ buckets m := h.resolve_left (Ne.symm hs)
        rw [add_cons_of_ne hu, add_cons_of_ne hs, add_cons_of_ne hs, add_cons_of_ne hu, ih hm]

theorem add_add_of_eq {s t : FolderSummary β} (h : t.bucketId = s.bucketId) (m : FolderMap β) :
    add s (add t m) = add (t.plus s.count) m := by
  induction m with
  | nil => rw [add, add_cons_of_eq h, add]
  | cons u m ih =>
      have hplus : (t.plus s.count).bucketId = t.bucketId := rfl
      by_cases hu : u.bucketId = t.bucketId
      · have hus : (u.plus t.count).bucketId = s.bucketId := hu.trans h
        rw [add_cons_of_eq hu, add_cons_of_eq hus, add_cons_of_eq (hu.trans hplus.symm),
          FolderSummary.plus_plus]
      · have hus : u.bucketId ≠ s.bucketId := fun he => hu (he.trans h.symm)
        have hut : u.bucketId ≠ (t.plus s.count).bucketId := hu
        rw [add_cons_of_ne hu, add_cons_of_ne hus, add_cons_of_ne hut, ih]

theorem merge_cons (m : FolderMap β) (s : FolderSummary β) (n : FolderMap β) :
    m.merge (s :: n) = (add s m).merge n := rfl

theorem add_merge_of_mem {s : FolderSummary β} {m : FolderMap β} (h : s.bucketId ∈ m.buckets)
    (n : FolderMap β) : add s (m.merge n) = (add s m).merge n := by
  induction n generalizing m with
  | nil => rfl
  | cons u n ih =>
      rw [merge_cons, ih (mem_buckets_add.2 (Or.inl h)), add_add_of_mem h, merge_cons]

theorem merge_add (m : FolderMap β) (s : FolderSummary β) (n : FolderMap β) :
    m.merge (add s n) = add s (m.merge n) := by
  induction n generalizing m with
  | nil => rfl
  | cons t n ih =>
      by_cases ht : t.bucketId = s.bucketId
      · have hmem : s.bucketId ∈ (add t m).buckets := mem_buckets_add.2 (Or.inr ht.symm)
        rw [add_cons_of_eq ht, merge_cons, merge_cons, add_merge_of_mem hmem, add_add_of_eq ht]
      · rw [add_cons_of_ne ht, merge_cons, merge_cons, ih]

end FolderMap

end MediaCatalog
