import MediaCatalog.Proofs.Folder.Union
import MediaCatalog.Proofs.Index.Order
import MediaCatalog.Proofs.Index.Reading

namespace MediaCatalog

namespace Index

namespace Entry

/-- The path is a text, the labels can be decoded, and the time is a whole number. -/
structure IsDated (e : Entry) : Prop where
  path : e.path.holdsText
  bucketId : e.bucketId.isDecodable
  bucketTitle : e.bucketTitle.isDecodable
  takenAt : e.takenAt = .int e.takenAt.whole

instance (e : Entry) : Decidable e.IsDated :=
  decidable_of_iff (e.path.holdsText ∧ e.bucketId.isDecodable ∧ e.bucketTitle.isDecodable ∧
      e.takenAt = .int e.takenAt.whole)
    ⟨fun ⟨a, b, c, d⟩ => ⟨a, b, c, d⟩, fun ⟨a, b, c, d⟩ => ⟨a, b, c, d⟩⟩

variable {e f : Entry}

theorem IsDated.isShowable (h : e.IsDated) : e.IsShowable where
  path := h.path
  bucketId := h.bucketId
  bucketTitle := h.bucketTitle
  takenAt := by
    rw [h.takenAt]
    rfl

theorem IsDated.older_iff (he : e.IsDated) (hf : f.IsDated) :
    f.takenAt.key ≤ e.takenAt.key ↔ f.takenAt.whole ≤ e.takenAt.whole := by
  rw [he.takenAt, hf.takenAt, Cell.key_int_le_iff]
  rfl

theorem inBucket_asFolderRow (b : Cell) (e : Entry) :
    e.asFolderRow.inBucket b ↔ e.bucketId.label = some b := by
  rw [FolderRow.inBucket, asFolderRow, decide_eq_true_iff]

end Entry

namespace Table

variable {t : Table} {kind : Kind} {b : Cell} {e : Entry}

/-- The entries of a bucket, whose id may be a text or a blob. -/
def filed (t : Table) (kind : Kind) (b : Cell) : List Entry :=
  t.entries.filter fun e => isKind kind e && e.hasPath && e.bucketId.label = some b

def IsNewest (l : List Entry) (e : Entry) : Prop :=
  e ∈ l ∧ ∀ f ∈ l, f.takenAt.whole ≤ e.takenAt.whole

def IsFirstTitled (l : List Entry) (e : Entry) : Prop :=
  e ∈ l ∧ ∀ f ∈ l, ¬ titleLt f.bucketTitle e.bucketTitle

theorem mem_filed :
    e ∈ t.filed kind b ↔ e ∈ t.folderEntries kind ∧ e.asFolderRow.inBucket b := by
  rw [filed, folderEntries, List.mem_mergeSort, List.mem_filter, List.mem_filter,
    Entry.inBucket_asFolderRow]
  have hlabel (h : e.bucketId.label = some b) : e.bucketId ≠ .null := by
    intro hnull
    rw [hnull] at h
    cases h
  simp only [Bool.and_eq_true, decide_eq_true_eq, Entry.hasPath]
  constructor
  · rintro ⟨he, ⟨hkind, hpath⟩, hb⟩
    exact ⟨⟨he, ⟨hkind, hpath⟩, hlabel hb⟩, hb⟩
  · rintro ⟨⟨he, ⟨hkind, hpath⟩, -⟩, hb⟩
    exact ⟨he, ⟨hkind, hpath⟩, hb⟩

theorem exists_leading (hb : t.filed kind b ≠ []) :
    ∃ e ∈ t.filed kind b,
      FolderScan.leading ((t.folderEntries kind).map Entry.asFolderRow) b = some e.asFolderRow ∧
      ∀ f ∈ t.filed kind b, e.folderKey ≤ f.folderKey := by
  obtain ⟨g, hg⟩ := List.exists_mem_of_ne_nil _ hb
  obtain ⟨hgmem, hgin⟩ := mem_filed.1 hg
  have hfound : ((t.folderEntries kind).find? fun e => e.asFolderRow.inBucket b).isSome :=
    List.find?_isSome.2 ⟨g, hgmem, hgin⟩
  obtain ⟨e, he⟩ := Option.isSome_iff_exists.1 hfound
  -- The entry found splits the sorted list: no entry of the bucket is before it, none less behind.
  obtain ⟨hein, before, behind, hsplit, hbefore⟩ := List.find?_eq_some_iff_append.1 he
  have hordered := t.folderEntries_ordered kind
  rw [hsplit] at hordered
  obtain ⟨-, hbehind, -⟩ := List.pairwise_append.1 hordered
  refine ⟨e, mem_filed.2 ⟨List.mem_of_find?_eq_some he, hein⟩, ?_, fun f hf => ?_⟩
  · rw [FolderScan.leading, List.find?_map]
    exact congrArg (Option.map _) he
  · obtain ⟨hfmem, hfin⟩ := mem_filed.1 hf
    rw [hsplit] at hfmem
    rcases List.mem_append.1 hfmem with hfmem | hfmem
    · have hout := hbefore f hfmem
      rw [hfin] at hout
      exact absurd hout (by decide)
    · rcases List.mem_cons.1 hfmem with rfl | hfmem
      · exact le_rfl
      · exact (List.pairwise_cons.1 hbehind).1 f hfmem

end Table

end Index

namespace KindScan

variable {β : Type} [DecidableEq β]

theorem get?_ofRows (cwd : Path) (camera : String) (rows : List (FolderRow β)) (b : β) :
    (ofRows cwd camera rows).folders.get? b = FolderScan.summaryOf cwd rows b := by
  have htallies := tallies_ofRows cwd camera rows
  cases h : (ofRows cwd camera rows).folders.get? b with
  | none =>
      have hnot : b ∉ (ofRows cwd camera rows).folders.buckets := by
        rw [← FolderMap.get?_isSome, h]
        exact Bool.false_ne_true
      have hleading : FolderScan.leading rows b = none := by
        rw [← Option.not_isSome_iff_eq_none, FolderScan.leading_isSome, ← htallies.mem_iff]
        exact hnot
      rw [FolderScan.summaryOf, hleading]
      rfl
  | some s =>
      have hsb : s.bucketId = b := by simpa using List.find?_some h
      rw [← hsb]
      exact (htallies.summary_eq s (List.mem_of_find?_eq_some h)).symm

theorem thumbnail_of_leading {rows : List (FolderRow β)} {row : FolderRow β} {b : β} (cwd : Path)
    (camera : String) (h : FolderScan.leading rows b = some row) :
    ∃ s, (ofRows cwd camera rows).folders.get? b = some s ∧
      s.thumbnail = Locator.ofPath cwd row.path := by
  rw [get?_ofRows, FolderScan.summaryOf, h]
  exact ⟨_, rfl, rfl⟩

end KindScan

namespace Index.Database

open Table

variable {d : Database} {t : Table} {r : Run World} {b : Cell}

theorem exists_shown (ht : ∀ e ∈ t.entries, e.IsDated) (hr : d.Contains r.state t) (kind : Kind)
    (cwd : Path) (camera : String) (hb : t.filed kind b ≠ []) :
    ∃ rows s e, (d.index.folders kind).exec r = (.ok rows, r) ∧
      (KindScan.ofRows cwd camera rows).folders.get? b = some s ∧
      s.thumbnail = Locator.ofPath cwd e.asFolderRow.path ∧
      IsFirstTitled (t.filed kind b) e ∧
      ∀ f, IsFirstTitled (t.filed kind b) f → f.takenAt.whole ≤ e.takenAt.whole := by
  obtain ⟨e, he, hleading, hleast⟩ := exists_leading hb
  have hdated : ∀ f ∈ t.filed kind b, f.IsDated := fun f hf => ht f (List.mem_filter.1 hf).1
  obtain ⟨s, hs, hthumbnail⟩ := KindScan.thumbnail_of_leading cwd camera hleading
  refine ⟨_, s, e, index_folders_exec (fun f hf => (ht f hf).isShowable) hr kind, hs, hthumbnail,
    ⟨he, ?_⟩, ?_⟩
  · intro f hf hlt
    rw [Cell.titleLt_iff] at hlt
    rcases Entry.folderKey_le_iff.1 (hleast f hf) with hgt | ⟨heq, -⟩
    · exact lt_asymm hlt hgt
    · exact hlt.ne heq.symm
  · intro f ⟨hf, hfirst⟩
    have hnot := hfirst e he
    rw [Cell.titleLt_iff] at hnot
    rcases Entry.folderKey_le_iff.1 (hleast f hf) with hlt | ⟨-, htime⟩
    · exact absurd hlt hnot
    · exact ((hdated e he).older_iff (hdated f hf)).1 htime

/-- The thumbnail of a bucket shows an entry whose title comes first among the bucket's entries of
the kind, and the newest of those. It is the newest of all only if one of the newest has that title,
as when all titles are the same. -/
theorem thumbnail_isNewest_iff (ht : ∀ e ∈ t.entries, e.IsDated) (hr : d.Contains r.state t)
    (kind : Kind) (cwd : Path) (camera : String) (hb : t.filed kind b ≠ []) :
    ∃ rows s e, (d.index.folders kind).exec r = (.ok rows, r) ∧
      (KindScan.ofRows cwd camera rows).folders.get? b = some s ∧
      s.thumbnail = Locator.ofPath cwd e.asFolderRow.path ∧
      IsFirstTitled (t.filed kind b) e ∧
      (∀ f, IsFirstTitled (t.filed kind b) f → f.takenAt.whole ≤ e.takenAt.whole) ∧
      (IsNewest (t.filed kind b) e ↔
        ∃ f, IsNewest (t.filed kind b) f ∧ IsFirstTitled (t.filed kind b) f) ∧
      ((∀ f ∈ t.filed kind b, ∀ g ∈ t.filed kind b, ¬ titleLt f.bucketTitle g.bucketTitle) →
        IsNewest (t.filed kind b) e) := by
  obtain ⟨rows, s, e, hrows, hs, hthumbnail, hfirst, htime⟩ :=
    exists_shown ht hr kind cwd camera hb
  refine ⟨rows, s, e, hrows, hs, hthumbnail, hfirst, htime, ⟨?_, ?_⟩, ?_⟩
  · intro hnewest
    exact ⟨e, hnewest, hfirst⟩
  · rintro ⟨f, ⟨-, hnewest⟩, hf⟩
    exact ⟨hfirst.1, fun g hg => (hnewest g hg).trans (htime f hf)⟩
  · intro hsame
    exact ⟨hfirst.1, fun g hg => htime g ⟨hg, fun f hf => hsame f hf g hg⟩⟩

def picture (id : Int) (path bucket title : String) (takenAt : Int) : Entry :=
  ⟨id, .text path, .text "image", .text bucket, .text title, .null, .int takenAt, .null, .int 3,
    .int 2, .int 7⟩

def renamedTable : Table where
  entries :=
    [picture 1 "/m/1.jpg" "a" "A" 1, picture 2 "/m/2.jpg" "a" "b" 9,
      picture 3 "/m/3.jpg" "c" "C" 3, picture 4 "/m/4.jpg" "c" "c" 4]
  lastId := 4

def renamedDatabase : Database := ⟨⟨.slash, ["media.db"]⟩⟩

def renamedRun : Run World where
  state :=
    { files := ⟨[(["media.db"], .file (.database (some renamedTable)) 0)]⟩
      cwd := ⟨.slash, []⟩
      home := "/" }
  log := []

theorem renamedRun_contains : renamedDatabase.Contains renamedRun.state renamedTable :=
  ⟨by decide, ["media.db"], 0, by decide, by decide⟩

theorem thumbnail_renamed_case :
    (∀ e ∈ renamedTable.entries, e.IsDated) ∧
      renamedDatabase.Contains renamedRun.state renamedTable ∧
      ∃ rows s, (renamedDatabase.index.folders .image).exec renamedRun = (.ok rows, renamedRun) ∧
        (KindScan.ofRows ⟨.slash, []⟩ "/m/camera" rows).folders.get? (.text "c") = some s ∧
        s.thumbnail = "file:///m/4.jpg" := by
  have hdated : ∀ e ∈ renamedTable.entries, e.IsDated := by decide
  obtain ⟨rows, s, e, hrows, hs, hthumbnail, -, -, -, hnewest⟩ :=
    thumbnail_isNewest_iff (b := .text "c") hdated renamedRun_contains .image ⟨.slash, []⟩
      "/m/camera" (by decide)
  obtain ⟨he, htime⟩ := hnewest (by decide)
  have hfour : e = picture 4 "/m/4.jpg" "c" "c" 4 := by
    have hle := htime (picture 4 "/m/4.jpg" "c" "c" 4) (by decide)
    have hmem : e ∈ [picture 3 "/m/3.jpg" "c" "C" 3, picture 4 "/m/4.jpg" "c" "c" 4] := he
    rcases List.mem_cons.1 hmem with rfl | hmem
    · exact absurd hle (by decide)
    · exact List.mem_singleton.1 hmem
  subst hfour
  exact ⟨hdated, renamedRun_contains, rows, s, hrows, hs, hthumbnail.trans (by decide)⟩

/-- The bucket that was renamed shows an old picture, for its old title comes first. -/
theorem thumbnail_outdated :
    (∀ e ∈ renamedTable.entries, e.IsDated) ∧
      renamedDatabase.Contains renamedRun.state renamedTable ∧
      IsNewest (renamedTable.filed .image (.text "a")) (picture 2 "/m/2.jpg" "a" "b" 9) ∧
      ∃ rows s, (renamedDatabase.index.folders .image).exec renamedRun = (.ok rows, renamedRun) ∧
        (KindScan.ofRows ⟨.slash, []⟩ "/m/camera" rows).folders.get? (.text "a") = some s ∧
        ∀ e, IsNewest (renamedTable.filed .image (.text "a")) e →
          s.thumbnail ≠ Locator.ofPath ⟨.slash, []⟩ e.asFolderRow.path := by
  have hdated : ∀ e ∈ renamedTable.entries, e.IsDated := by decide
  obtain ⟨rows, s, e, hrows, hs, hthumbnail, ⟨he, hfirst⟩, -⟩ :=
    exists_shown (b := .text "a") hdated renamedRun_contains .image ⟨.slash, []⟩ "/m/camera"
      (by decide)
  have hmem {f : Entry} (hf : f ∈ renamedTable.filed .image (.text "a")) :
      f = picture 1 "/m/1.jpg" "a" "A" 1 ∨ f = picture 2 "/m/2.jpg" "a" "b" 9 := by
    have hlist : f ∈ [picture 1 "/m/1.jpg" "a" "A" 1, picture 2 "/m/2.jpg" "a" "b" 9] := hf
    simpa using hlist
  refine ⟨hdated, renamedRun_contains, ⟨by decide, by decide⟩, rows, s, hrows, hs,
    fun f hnewest => ?_⟩
  rcases hmem he with rfl | rfl
  · rcases hmem hnewest.1 with rfl | rfl
    · have hle := hnewest.2 (picture 2 "/m/2.jpg" "a" "b" 9) (by decide)
      exact absurd hle (by decide)
    · rw [hthumbnail]
      decide
  · exact absurd (hfirst (picture 1 "/m/1.jpg" "a" "A" 1) (by decide)) (by decide)

end Index.Database

end MediaCatalog
