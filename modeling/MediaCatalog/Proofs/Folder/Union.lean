import MediaCatalog.Proofs.Folder.Tally

namespace MediaCatalog

variable {β : Type}

/-- One summary of a bucket from two: the first one's fields, and both counts. -/
def FolderSummary.join (s : Option (FolderSummary β)) (t : FolderSummary β) : FolderSummary β :=
  s.elim t (·.plus t.count)

namespace FolderMap

def IsKeyed (m : FolderMap β) : Prop := m.buckets.Nodup

theorem buckets_concat (m : FolderMap β) (s : FolderSummary β) :
    buckets (m ++ [s]) = m.buckets ++ [s.bucketId] := List.map_append

variable [DecidableEq β]

instance (m : FolderMap β) : Decidable m.IsKeyed := inferInstanceAs (Decidable m.buckets.Nodup)

def countOf (b : β) (m : FolderMap β) : Option Int := (m.get? b).map (·.count)

section Lookup

variable {b : β} {s : FolderSummary β} {m n : FolderMap β}

theorem get?_cons_of_eq (h : s.bucketId = b) (m : FolderMap β) : get? b (s :: m) = some s :=
  List.find?_cons_of_pos (decide_eq_true h)

theorem get?_cons_of_ne (h : s.bucketId ≠ b) (m : FolderMap β) : get? b (s :: m) = get? b m :=
  List.find?_cons_of_neg (by simpa using h)

theorem get?_isSome : (get? b m).isSome ↔ b ∈ m.buckets := by
  simp [get?, buckets, List.find?_isSome]

theorem get?_eq_none (h : b ∉ m.buckets) : get? b m = none := by
  rw [← Option.not_isSome_iff_eq_none, get?_isSome]
  exact h

theorem get?_add_of_ne (h : s.bucketId ≠ b) (m : FolderMap β) : get? b (add s m) = get? b m := by
  induction m with
  | nil => exact get?_cons_of_ne h []
  | cons t m ih =>
      by_cases hts : t.bucketId = s.bucketId
      · have htb : t.bucketId ≠ b := hts ▸ h
        have hplus : (t.plus s.count).bucketId ≠ b := htb
        rw [add_cons_of_eq hts, get?_cons_of_ne hplus, get?_cons_of_ne htb]
      · rw [add_cons_of_ne hts]
        by_cases htb : t.bucketId = b
        · rw [get?_cons_of_eq htb, get?_cons_of_eq htb]
        · rw [get?_cons_of_ne htb, get?_cons_of_ne htb, ih]

theorem get?_add_self (h : s.bucketId = b) (m : FolderMap β) :
    get? b (add s m) = some (.join (get? b m) s) := by
  induction m with
  | nil => exact get?_cons_of_eq h []
  | cons t m ih =>
      by_cases hts : t.bucketId = s.bucketId
      · have htb : t.bucketId = b := hts.trans h
        have hplus : (t.plus s.count).bucketId = b := htb
        rw [add_cons_of_eq hts, get?_cons_of_eq hplus, get?_cons_of_eq htb]
        rfl
      · have htb : t.bucketId ≠ b := fun he => hts (he.trans h.symm)
        rw [add_cons_of_ne hts, get?_cons_of_ne htb, get?_cons_of_ne htb, ih]

theorem get?_merge (hn : n.IsKeyed) (m : FolderMap β) (b : β) :
    get? b (m.merge n) = (get? b n).elim (get? b m) fun t => some (.join (get? b m) t) := by
  induction n generalizing m with
  | nil => rfl
  | cons s n ih =>
      obtain ⟨hs, hn⟩ := List.nodup_cons.1 hn
      rw [merge_cons, ih hn]
      by_cases hsb : s.bucketId = b
      · rw [get?_eq_none (hsb ▸ hs), get?_cons_of_eq hsb, get?_add_self hsb]
        rfl
      · rw [get?_add_of_ne hsb, get?_cons_of_ne hsb]

theorem countOf_merge_comm (hm : m.IsKeyed) (hn : n.IsKeyed) (b : β) :
    countOf b (m.merge n) = countOf b (n.merge m) := by
  rw [countOf, countOf, get?_merge hn, get?_merge hm]
  cases get? b m with
  | none => cases get? b n <;> rfl
  | some s =>
      cases get? b n with
      | none => rfl
      | some t => exact congrArg some (Int.add_comm s.count t.count)

end Lookup

theorem mem_buckets_merge {m n : FolderMap β} {b : β} :
    b ∈ (m.merge n).buckets ↔ b ∈ m.buckets ∨ b ∈ n.buckets := by
  induction n generalizing m with
  | nil => simp [merge]
  | cons s n ih => rw [merge_cons, ih, mem_buckets_add, buckets_cons, List.mem_cons, or_assoc]

theorem IsKeyed.add {m : FolderMap β} (h : m.IsKeyed) (s : FolderSummary β) :
    IsKeyed (add s m) := by
  by_cases hs : s.bucketId ∈ m.buckets
  · have hsame : buckets (m.map (raised s)) = m.buckets := by
      simp [buckets, raised_bucketId]
    rw [IsKeyed, add_of_mem h hs, hsame]
    exact h
  · rw [IsKeyed, add_of_not_mem hs, buckets_concat]
    exact List.nodup_append.2 ⟨h, List.pairwise_singleton _ _, fun b hb c hc he =>
      hs (List.mem_singleton.1 hc ▸ he ▸ hb)⟩

theorem IsKeyed.merge {m : FolderMap β} (h : m.IsKeyed) (n : FolderMap β) :
    (m.merge n).IsKeyed := by
  induction n generalizing m with
  | nil => exact h
  | cons s n ih => exact ih (h.add s)

theorem merge_assoc (l m n : FolderMap β) : (l.merge m).merge n = l.merge (m.merge n) := by
  induction n generalizing m with
  | nil => rfl
  | cons s n ih => rw [merge_cons, merge_cons, ← ih, merge_add]

theorem merge_append_of_disjoint {m n : FolderMap β} (hn : n.IsKeyed)
    (h : ∀ b ∈ n.buckets, b ∉ m.buckets) : m.merge n = m ++ n := by
  induction n generalizing m with
  | nil => exact (List.append_nil m).symm
  | cons s n ih =>
      obtain ⟨hs, hn⟩ := List.nodup_cons.1 hn
      have hfresh : ∀ b ∈ buckets n, b ∉ buckets (m ++ [s]) := by
        intro b hb hmem
        rw [buckets_concat, List.mem_append, List.mem_singleton] at hmem
        rcases hmem with hold | rfl
        · exact h b (List.mem_cons_of_mem _ hb) hold
        · exact hs hb
      rw [merge_cons, add_of_not_mem (h _ List.mem_cons_self), ih hn hfresh, List.append_assoc]
      rfl

theorem nil_merge {m : FolderMap β} (h : m.IsKeyed) : merge [] m = m :=
  merge_append_of_disjoint h fun _ _ => List.not_mem_nil

end FolderMap

namespace KindScan

variable [DecidableEq β]

theorem isKeyed_ofRows (cwd : Path) (camera : String) (rows : List (FolderRow β)) :
    (ofRows cwd camera rows).folders.IsKeyed :=
  (tallies_ofRows cwd camera rows).nodup

theorem cameraBucket_ofRows_append (cwd : Path) (camera : String) (xs ys : List (FolderRow β)) :
    (ofRows cwd camera (xs ++ ys)).cameraBucket =
      (ofRows cwd camera xs).cameraBucket.or (ofRows cwd camera ys).cameraBucket := by
  simp only [FolderScan.cameraBucket_ofRows, FolderScan.cameraBucket_append]

/-- Scanning rows in two parts and merging is scanning them in one go, at whatever place they are
split, and the camera is that of the first part that has one. Merging maps does not depend on how
they are grouped, has the empty map as its unit, and when its arguments are swapped keeps the
buckets and their counts, though not their order or other fields. -/
theorem ofRows_append_eq_merge (cwd : Path) (camera : String) :
    (∀ xs ys : List (FolderRow β), (ofRows cwd camera (xs ++ ys)).folders.IsKeyed ∧
      (ofRows cwd camera (xs ++ ys)).folders =
        (ofRows cwd camera xs).folders.merge (ofRows cwd camera ys).folders ∧
      (ofRows cwd camera (xs ++ ys)).cameraBucket =
        (ofRows cwd camera xs).cameraBucket.or (ofRows cwd camera ys).cameraBucket) ∧
    (∀ l m n : FolderMap β, (l.merge m).merge n = l.merge (m.merge n)) ∧
    (∀ m : FolderMap β, m.IsKeyed → m.merge [] = m ∧ FolderMap.merge [] m = m) ∧
    ∀ m n : FolderMap β, m.IsKeyed → n.IsKeyed → (m.merge n).IsKeyed ∧
      ∀ b, (b ∈ (m.merge n).buckets ↔ b ∈ (n.merge m).buckets) ∧
        (m.merge n).countOf b = (n.merge m).countOf b := by
  refine ⟨fun xs ys => ⟨isKeyed_ofRows cwd camera _, ?_, ?_⟩, FolderMap.merge_assoc,
    fun m hm => ⟨rfl, FolderMap.nil_merge hm⟩, fun m n hm hn => ⟨hm.merge n, fun b => ⟨?_, ?_⟩⟩⟩
  · exact (merge_folders xs ys).symm
  · exact cameraBucket_ofRows_append cwd camera xs ys
  · rw [FolderMap.mem_buckets_merge, FolderMap.mem_buckets_merge, or_comm]
  · exact FolderMap.countOf_merge_comm hm hn b

def oldFolders : FolderMap String :=
  [⟨"x", some "X", "file:///m/1.jpg", 2⟩, ⟨"y", none, "file:///m/2.jpg", 1⟩]

def newFolders : FolderMap String :=
  [⟨"z", some "Z", "file:///m/3.mp4", 4⟩, ⟨"x", some "x", "file:///m/4.mp4", 3⟩]

/-- Two maps that share a bucket: either way round it counts five, but comes first in one order and
last in the other. -/
theorem merge_folders_sample :
    oldFolders.IsKeyed ∧ newFolders.IsKeyed ∧ (oldFolders.merge newFolders).countOf "x" = some 5 ∧
      (newFolders.merge oldFolders).countOf "x" = some 5 ∧
      oldFolders.merge newFolders ≠ newFolders.merge oldFolders := by
  obtain ⟨-, -, -, hswap⟩ := ofRows_append_eq_merge (β := String) ⟨.slash, []⟩ "/m/camera"
  obtain ⟨-, hcount⟩ := hswap oldFolders newFolders (by decide) (by decide)
  have hfive : (oldFolders.merge newFolders).countOf "x" = some 5 := by decide
  exact ⟨by decide, by decide, hfive, (hcount "x").2 ▸ hfive, by decide⟩

end KindScan

end MediaCatalog
