import MediaCatalog.Folder.Listing
import MediaCatalog.Proofs.Folder.Merge
import Mathlib.Data.List.Induction

namespace MediaCatalog

variable {β : Type}

def FolderRow.inBucket [DecidableEq β] (b : β) (row : FolderRow β) : Bool := row.bucketId = some b

def FolderRow.single (cwd : Path) (b : β) (row : FolderRow β) : FolderSummary β :=
  ⟨b, row.title, Locator.ofPath cwd row.path, 1⟩

namespace FolderScan

def occurs (rows : List (FolderRow β)) (b : β) : Prop := ∃ row ∈ rows, row.bucketId = some b

theorem occurs_concat {rows : List (FolderRow β)} {row : FolderRow β} {b : β} :
    occurs (rows ++ [row]) b ↔ occurs rows b ∨ row.bucketId = some b := by
  simp [occurs, or_and_right, exists_or]

variable [DecidableEq β]

def firstPlace (rows : List (FolderRow β)) (b : β) : Nat := rows.findIdx (FolderRow.inBucket b)

/-- The row that speaks for a bucket: its first one. -/
def leading (rows : List (FolderRow β)) (b : β) : Option (FolderRow β) :=
  rows.find? (FolderRow.inBucket b)

def summaryOf (cwd : Path) (rows : List (FolderRow β)) (b : β) : Option (FolderSummary β) :=
  (leading rows b).map fun row =>
    ⟨b, row.title, Locator.ofPath cwd row.path, rows.countP (FolderRow.inBucket b)⟩

/-- A map that has one summary for each bucket of the rows, by first appearance. -/
structure Tallies (cwd : Path) (rows : List (FolderRow β)) (m : FolderMap β) : Prop where
  mem_iff : ∀ b, b ∈ m.buckets ↔ occurs rows b
  summary_eq : ∀ s ∈ m, summaryOf cwd rows s.bucketId = some s
  ordered : m.Pairwise fun s t => firstPlace rows s.bucketId < firstPlace rows t.bucketId

theorem inBucket_iff {b : β} {row : FolderRow β} : row.inBucket b ↔ row.bucketId = some b := by
  simp [FolderRow.inBucket]

theorem leading_isSome {rows : List (FolderRow β)} {b : β} :
    (leading rows b).isSome ↔ occurs rows b := by
  simp [leading, occurs, List.find?_isSome, inBucket_iff]

theorem firstPlace_lt {rows : List (FolderRow β)} {b : β} (h : occurs rows b) :
    firstPlace rows b < rows.length := by
  obtain ⟨row, hrow, hb⟩ := h
  exact List.findIdx_lt_length_of_exists ⟨row, hrow, inBucket_iff.2 hb⟩

section Concat

variable {rows : List (FolderRow β)} {row : FolderRow β} {b : β}

theorem firstPlace_concat_of_occurs (h : occurs rows b) (row : FolderRow β) :
    firstPlace (rows ++ [row]) b = firstPlace rows b := by
  have hlt := firstPlace_lt h
  rw [firstPlace] at hlt
  rw [firstPlace, List.findIdx_append, if_pos hlt, firstPlace]

theorem length_le_firstPlace_concat (h : ¬ occurs rows b) (row : FolderRow β) :
    rows.length ≤ firstPlace (rows ++ [row]) b := by
  have hnot : ¬ rows.findIdx (FolderRow.inBucket b) < rows.length := by
    intro hlt
    exact h ⟨_, List.getElem_mem hlt, inBucket_iff.1 (List.findIdx_getElem)⟩
  rw [firstPlace, List.findIdx_append, if_neg hnot]
  omega

theorem summaryOf_concat_of_ne (cwd : Path) (h : row.bucketId ≠ some b) :
    summaryOf cwd (rows ++ [row]) b = summaryOf cwd rows b := by
  have hrow : row.inBucket b = false := by simpa [FolderRow.inBucket] using h
  simp [summaryOf, leading, List.find?_append, List.countP_append, hrow]

theorem summaryOf_concat_of_eq {cwd : Path} {s : FolderSummary β}
    (hs : summaryOf cwd rows b = some s) (h : row.bucketId = some b) :
    summaryOf cwd (rows ++ [row]) b = some (s.plus 1) := by
  have hrow : row.inBucket b = true := inBucket_iff.2 h
  obtain ⟨first, hfirst, rfl⟩ := Option.map_eq_some_iff.1 hs
  rw [leading] at hfirst
  simp [summaryOf, leading, List.find?_append, List.countP_append, hfirst, hrow, FolderSummary.plus]

theorem summaryOf_concat_of_new {cwd : Path} (hnew : ¬ occurs rows b) (h : row.bucketId = some b) :
    summaryOf cwd (rows ++ [row]) b = some (row.single cwd b) := by
  have hrow : row.inBucket b = true := inBucket_iff.2 h
  have hnone : ∀ x ∈ rows, x.inBucket b = false := by
    intro x hx
    by_contra hxb
    exact hnew ⟨x, hx, inBucket_iff.1 (by simpa using hxb)⟩
  have hfind : rows.find? (FolderRow.inBucket b) = none := by simpa using hnone
  have hcount : rows.countP (FolderRow.inBucket b) = 0 := by simpa using hnone
  simp [summaryOf, leading, List.find?_append, List.countP_append, FolderRow.single, hfind, hcount,
    hrow]

end Concat

namespace Tallies

variable {cwd : Path} {rows : List (FolderRow β)} {m : FolderMap β}

theorem empty (cwd : Path) : Tallies cwd ([] : List (FolderRow β)) [] where
  mem_iff := by simp [occurs]
  summary_eq := by simp
  ordered := .nil

theorem occurs_of_mem (h : Tallies cwd rows m) {s : FolderSummary β} (hs : s ∈ m) :
    occurs rows s.bucketId :=
  (h.mem_iff _).1 (FolderMap.mem_buckets_of_mem hs)

theorem nodup (h : Tallies cwd rows m) : m.buckets.Nodup := by
  rw [FolderMap.buckets, List.Nodup, List.pairwise_map]
  exact h.ordered.imp fun hlt he => absurd (he ▸ hlt) (Nat.lt_irrefl _)

theorem ordered_concat (h : Tallies cwd rows m) (row : FolderRow β) :
    m.Pairwise fun s t =>
      firstPlace (rows ++ [row]) s.bucketId < firstPlace (rows ++ [row]) t.bucketId := by
  refine h.ordered.imp_of_mem fun {s t} hs ht hlt => ?_
  rw [firstPlace_concat_of_occurs (h.occurs_of_mem hs),
    firstPlace_concat_of_occurs (h.occurs_of_mem ht)]
  exact hlt

theorem skip (h : Tallies cwd rows m) {row : FolderRow β} (hrow : row.bucketId = none) :
    Tallies cwd (rows ++ [row]) m where
  mem_iff b := by simp [h.mem_iff, occurs_concat, hrow]
  summary_eq s hs := by
    rw [summaryOf_concat_of_ne cwd (by simp [hrow])]
    exact h.summary_eq s hs
  ordered := h.ordered_concat row

theorem raise (h : Tallies cwd rows m) {row : FolderRow β} {b : β} (hrow : row.bucketId = some b)
    (hb : b ∈ m.buckets) :
    Tallies cwd (rows ++ [row]) (m.map (FolderMap.raised (row.single cwd b))) where
  mem_iff b' := by
    have hold : b' = b → occurs rows b' := fun he => (h.mem_iff b').1 (he ▸ hb)
    have hbuckets :
        FolderMap.buckets (m.map (FolderMap.raised (row.single cwd b))) = m.buckets := by
      simp [FolderMap.buckets, FolderMap.raised_bucketId]
    rw [hbuckets, h.mem_iff, occurs_concat, hrow, Option.some.injEq, eq_comm (a := b)]
    tauto
  summary_eq s' hs' := by
    obtain ⟨s, hs, rfl⟩ := List.mem_map.1 hs'
    have hsummary := h.summary_eq s hs
    rw [FolderMap.raised_bucketId, FolderMap.raised]
    by_cases he : s.bucketId = b
    · rw [summaryOf_concat_of_eq hsummary (he ▸ hrow)]
      simp [FolderRow.single, he]
    · have hne : row.bucketId ≠ some s.bucketId := fun hsome =>
        he (Option.some.inj (hrow ▸ hsome)).symm
      rw [summaryOf_concat_of_ne cwd hne, hsummary]
      simp [FolderRow.single, he]
  ordered := by
    rw [List.pairwise_map]
    simpa only [FolderMap.raised_bucketId] using h.ordered_concat row

theorem append (h : Tallies cwd rows m) {row : FolderRow β} {b : β} (hrow : row.bucketId = some b)
    (hb : b ∉ m.buckets) : Tallies cwd (rows ++ [row]) (m ++ [row.single cwd b]) where
  mem_iff b' := by
    have hbuckets : FolderMap.buckets (m ++ [row.single cwd b]) = m.buckets ++ [b] := by
      simp [FolderMap.buckets, FolderRow.single]
    rw [hbuckets, List.mem_append, h.mem_iff, occurs_concat, hrow, Option.some.injEq,
      List.mem_singleton, eq_comm (a := b)]
  summary_eq s hs := by
    rcases List.mem_append.1 hs with hs | hs
    · have hne : s.bucketId ≠ b := fun he => hb (he ▸ FolderMap.mem_buckets_of_mem hs)
      rw [summaryOf_concat_of_ne cwd (fun hsome => hne (Option.some.inj (hrow ▸ hsome)).symm)]
      exact h.summary_eq s hs
    · obtain rfl := List.mem_singleton.1 hs
      exact summaryOf_concat_of_new (fun hocc => hb ((h.mem_iff b).2 hocc)) hrow
  ordered := by
    refine List.pairwise_append.2 ⟨h.ordered_concat row, List.pairwise_singleton _ _, ?_⟩
    intro s hs t ht
    obtain rfl := List.mem_singleton.1 ht
    have hnew : ¬ occurs rows (row.single cwd b).bucketId := fun hocc => hb ((h.mem_iff b).2 hocc)
    have hlt := firstPlace_lt (h.occurs_of_mem hs)
    have hle := length_le_firstPlace_concat hnew row
    rw [firstPlace_concat_of_occurs (h.occurs_of_mem hs)]
    omega

theorem add (h : Tallies cwd rows m) {row : FolderRow β} {b : β} (hrow : row.bucketId = some b) :
    Tallies cwd (rows ++ [row]) (FolderMap.add (row.single cwd b) m) := by
  by_cases hb : b ∈ m.buckets
  · rw [FolderMap.add_of_mem h.nodup hb]
    exact h.raise hrow hb
  · rw [FolderMap.add_of_not_mem hb]
    exact h.append hrow hb

end Tallies

end FolderScan

namespace KindScan

variable [DecidableEq β] {cwd : Path} {camera : String}

theorem step_of_none (scan : KindScan β) {row : FolderRow β} (h : row.bucketId = none) :
    step cwd camera scan row = scan := by
  rw [step, h]

theorem folders_step_of_some (scan : KindScan β) {row : FolderRow β} {b : β}
    (h : row.bucketId = some b) :
    (step cwd camera scan row).folders = FolderMap.add (row.single cwd b) scan.folders := by
  rw [step, h]
  rfl

theorem ofRows_append (rows more : List (FolderRow β)) :
    ofRows cwd camera (rows ++ more) = more.foldl (step cwd camera) (ofRows cwd camera rows) :=
  List.foldl_append

theorem ofRows_concat (rows : List (FolderRow β)) (row : FolderRow β) :
    ofRows cwd camera (rows ++ [row]) = step cwd camera (ofRows cwd camera rows) row :=
  ofRows_append rows [row]

theorem tallies_ofRows (cwd : Path) (camera : String) (rows : List (FolderRow β)) :
    FolderScan.Tallies cwd rows (ofRows cwd camera rows).folders := by
  induction rows using List.reverseRecOn with
  | nil => exact .empty cwd
  | append_singleton rows row ih =>
      rw [ofRows_concat]
      cases h : row.bucketId with
      | none =>
          rw [step_of_none _ h]
          exact ih.skip h
      | some b =>
          rw [folders_step_of_some _ h]
          exact ih.add h

theorem folders_foldl (scan : KindScan β) (rows : List (FolderRow β)) :
    (rows.foldl (step cwd camera) scan).folders =
      scan.folders.merge (ofRows cwd camera rows).folders := by
  induction rows using List.reverseRecOn with
  | nil => rfl
  | append_singleton rows row ih =>
      rw [List.foldl_append, List.foldl_cons, List.foldl_nil, ofRows_concat]
      cases h : row.bucketId with
      | none => rw [step_of_none _ h, step_of_none _ h, ih]
      | some b =>
          rw [folders_step_of_some _ h, folders_step_of_some _ h, ih, FolderMap.merge_add]

theorem merge_folders (images videos : List (FolderRow β)) :
    (ofRows cwd camera images).folders.merge (ofRows cwd camera videos).folders =
      (ofRows cwd camera (images ++ videos)).folders := by
  rw [ofRows_append, folders_foldl]

end KindScan

namespace FolderScan

def isCamera (camera : String) (row : FolderRow β) : Bool :=
  row.bucketId.isSome && camera.toList.isPrefixOf row.path.toList

def cameraBucket (camera : String) (rows : List (FolderRow β)) : Option β :=
  (rows.find? (isCamera camera)).bind (·.bucketId)

theorem cameraBucket_append (camera : String) (rows more : List (FolderRow β)) :
    cameraBucket camera (rows ++ more) =
      (cameraBucket camera rows).or (cameraBucket camera more) := by
  rw [cameraBucket, List.find?_append, cameraBucket]
  cases h : rows.find? (isCamera camera) with
  | none => rfl
  | some row =>
      have hrow : isCamera camera row := List.find?_some h
      cases hb : row.bucketId <;> simp_all [isCamera]

theorem cameraBucket_singleton (camera : String) (row : FolderRow β) :
    cameraBucket camera [row] = if isCamera camera row then row.bucketId else none := by
  rw [cameraBucket, List.find?_singleton]
  split <;> rfl

theorem occurs_of_cameraBucket {camera : String} {rows : List (FolderRow β)} {b : β}
    (h : cameraBucket camera rows = some b) : occurs rows b := by
  obtain ⟨row, hrow, hb⟩ := Option.bind_eq_some_iff.1 h
  exact ⟨row, List.mem_of_find?_eq_some hrow, hb⟩

theorem cameraBucket_isSome {camera : String} {rows : List (FolderRow β)} :
    (cameraBucket camera rows).isSome ↔ ∃ row ∈ rows, isCamera camera row := by
  rw [← List.find?_isSome, cameraBucket]
  cases h : rows.find? (isCamera camera) with
  | none => simp
  | some row =>
      have hrow : isCamera camera row := List.find?_some h
      have hbucket : row.bucketId.isSome := (Bool.and_eq_true_iff.1 hrow).1
      simpa using hbucket

theorem cameraBucket_ofRows [DecidableEq β] (cwd : Path) (camera : String)
    (rows : List (FolderRow β)) :
    (KindScan.ofRows cwd camera rows).cameraBucket = cameraBucket camera rows := by
  induction rows using List.reverseRecOn with
  | nil => rfl
  | append_singleton rows row ih =>
      rw [KindScan.ofRows_concat, cameraBucket_append, cameraBucket_singleton, ← ih]
      cases h : row.bucketId with
      | none => rw [KindScan.step_of_none _ h]; simp
      | some b =>
          simp only [KindScan.step, h, isCamera]
          cases (KindScan.ofRows cwd camera rows).cameraBucket <;> simp

end FolderScan

end MediaCatalog
