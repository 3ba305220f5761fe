import Mathlib.Data.List.Perm.Basic
import MediaCatalog.Proofs.Folder.Cover
import MediaCatalog.Proofs.Index.Reading
import MediaCatalog.Repository.Wiring

namespace MediaCatalog

open FolderScan Index

theorem totalCount_eq_countP {rows : List (FolderRow String)} {folders : List Folder}
    (h : ∀ f ∈ folders, f.itemCount = rows.countP (FolderRow.inBucket f.bucketId))
    (hnodup : (folders.map (·.bucketId)).Nodup) :
    FolderScans.totalCount folders =
      rows.countP fun row => row.bucketId.any (folders.map (·.bucketId)).contains := by
  induction folders with
  | nil =>
      have hnone : rows.countP (fun row => row.bucketId.any [].contains) = 0 := by
        refine List.countP_eq_zero.2 fun row _ => ?_
        cases row.bucketId <;> simp
      exact (congrArg Nat.cast hnone).symm
  | cons f folders ih =>
      obtain ⟨hf, hfolders⟩ := List.nodup_cons.1 hnodup
      have hrest := ih (fun g hg => h g (List.mem_cons_of_mem f hg)) hfolders
      rw [FolderScans.totalCount_cons, h f List.mem_cons_self, hrest, ← Int.natCast_add,
        Int.natCast_inj]
      refine (countP_add fun row _ => ?_).symm
      cases hrow : row.bucketId with
      | none => simp [FolderRow.inBucket, hrow]
      | some b =>
          by_cases he : b = f.bucketId
          · subst he
            simpa [FolderRow.inBucket, hrow] using hf
          · simp [FolderRow.inBucket, hrow, he]

namespace FolderLister

section Buckets

variable {σ β : Type} (l : FolderLister σ β) (images videos : List (FolderRow String))

/-- The listed folders that stand for one bucket each. -/
def bucketFolders : List Folder :=
  (l.scans images videos).cameraFolder.toList ++ (l.scans images videos).normalFolders

variable {l images videos}

theorem mem_bucketFolders {f : Folder} :
    f ∈ l.bucketFolders images videos ↔ f ∈ l.listed images videos ∧ f.kind ≠ .allMedia := by
  have hs := l.scans_reflects images videos
  rw [bucketFolders, listed, List.mem_append, List.mem_append, List.mem_append, Option.mem_toList,
    Option.mem_toList]
  constructor
  · rintro (hf | hf)
    · rw [(hs.describes_cameraFolder hf).kind_eq]
      exact ⟨.inl (.inl hf), by decide⟩
    · rw [(hs.describes_of_mem_normal hf).kind_eq]
      exact ⟨.inr hf, by decide⟩
  · rintro ⟨(hf | hf) | hf, hkind⟩
    · exact .inl hf
    · obtain ⟨_, -, rfl⟩ := Option.map_eq_some_iff.1 hf
      exact absurd rfl hkind
    · exact .inr hf

theorem itemCount_of_mem_bucketFolders {f : Folder} (hf : f ∈ l.bucketFolders images videos) :
    f.itemCount = (images ++ videos).countP (FolderRow.inBucket f.bucketId) := by
  have hs := l.scans_reflects images videos
  rcases List.mem_append.1 hf with hf | hf
  · exact (hs.describes_cameraFolder (Option.mem_toList.1 hf)).itemCount_eq
  · exact (hs.describes_of_mem_normal hf).itemCount_eq

theorem nodup_bucketFolders : ((l.bucketFolders images videos).map (·.bucketId)).Nodup := by
  have hs := l.scans_reflects images videos
  rw [bucketFolders, List.map_append]
  refine List.nodup_append.2 ⟨?_, hs.nodup_normalFolders, ?_⟩
  · cases (l.scans images videos).cameraFolder <;> simp
  · intro b hb b' hb' he
    obtain ⟨f, hf, rfl⟩ := List.mem_map.1 hb
    obtain ⟨g, hg, rfl⟩ := List.mem_map.1 hb'
    have hcamera := hs.cameraFolder_bucketId
    rw [Option.mem_toList.1 hf] at hcamera
    exact ((hs.exists_normal_iff _).1 ⟨g, hg, rfl⟩).1 (he ▸ hcamera.symm)

theorem not_mem_bucketFolders_iff {b : String} :
    b ∉ (l.bucketFolders images videos).map (·.bucketId) ↔
      FolderScan.cameraBucket l.camera (images ++ videos) ≠ some b ∧
        ∀ row, leading (images ++ videos) b = some row → row.title = none := by
  have hs := l.scans_reflects images videos
  have hcamera : b ∈ (l.scans images videos).cameraFolder.toList.map (·.bucketId) ↔
      FolderScan.cameraBucket l.camera (images ++ videos) = some b := by
    rw [← hs.cameraFolder_bucketId]
    simp
  have hnormal := List.mem_map.trans (hs.exists_normal_iff b)
  rw [bucketFolders, List.map_append, List.mem_append, hcamera, hnormal]
  simp only [not_or, not_and, not_exists, Option.not_isSome_iff_eq_none]
  exact and_congr_right fun h => ⟨fun h' => h' h, fun h' _ => h'⟩

theorem allMediaFolder_itemCount {f : Folder} (hf : l.allMediaFolder images videos = some f) :
    f.itemCount = (images ++ videos).countP fun row =>
      row.bucketId.any ((l.bucketFolders images videos).map (·.bucketId)).contains := by
  rw [FolderScans.allMedia_itemCount hf]
  exact totalCount_eq_countP (fun g hg => itemCount_of_mem_bucketFolders hg) nodup_bucketFolders

end Buckets

theorem listed_textRow {σ : Type} (l : FolderLister σ Cell)
    (images videos : List (FolderRow String)) :
    l.listed (images.map textRow) (videos.map textRow) = l.listed images videos :=
  l.listed_relabel Cell.read_text Cell.text_injective images videos

theorem list_exec_textRow {σ : Type} {l : FolderLister σ Cell} {r : Run σ}
    {images videos : List (FolderRow String)}
    (h : l.Reads r (images.map textRow) (videos.map textRow)) :
    (l.list.exec r).1 = .ok (l.listed images videos) := by
  have hlists := lists_of_reads h
  have hlegible : (l.scans (images.map textRow) (videos.map textRow)).isLegible = true := by
    rw [scans, FolderScans.ofRows_relabel Cell.text_injective,
      FolderScans.isLegible_relabel Cell.read_text Cell.text_injective]
    exact FolderScans.isLegible_text _
  rw [hlegible, listed_textRow] at hlists
  exact hlists.eq_ok

theorem exists_textRow {entries : List Entry} {rows : List (FolderRow Cell)}
    (ht : ∀ e ∈ entries, e.IsTyped) (h : rows.Perm (entries.map Entry.asFolderRow)) :
    ∃ texts : List (FolderRow String), rows = texts.map textRow ∧
      texts.Perm (entries.map Entry.asTextRow) := by
  have hsame : entries.map Entry.asFolderRow = (entries.map Entry.asTextRow).map textRow := by
    rw [List.map_map]
    exact List.map_congr_left fun e he => (ht e he).asFolderRow_eq
  rw [hsame] at h
  have hrows : Relation.Comp (fun rows texts => rows = texts.map textRow) List.Perm rows
      (entries.map Entry.asTextRow) := by
    rw [List.eq_map_comp_perm]
    exact h
  exact hrows

theorem reads_table {l : FolderLister World Cell} {d : Database} {t : Table} {r : Run World}
    (ht : t.IsTyped) (hl : l.index.Reorders d.index) (hr : d.Serves t l.hasReadAccess r) :
    ∃ images videos, l.Reads r (images.map textRow) (videos.map textRow) ∧
      t.Answers images videos := by
  obtain ⟨r₁, haccess, hcontains⟩ := hr
  have hshowable : ∀ e ∈ t.entries, e.IsShowable := fun e he => (ht e he).isShowable
  have hselected {kind : Kind} : ∀ e ∈ t.folderEntries kind, e.IsTyped :=
    fun e he => ht e (Table.mem_folderEntries he).1
  obtain ⟨_, himages, hi⟩ :=
    hl.folders (Database.index_folders_exec hshowable hcontains .image)
  obtain ⟨_, hvideos, hv⟩ :=
    hl.folders (Database.index_folders_exec hshowable hcontains .video)
  obtain ⟨images, rfl, hi'⟩ := exists_textRow hselected hi
  obtain ⟨videos, rfl, hv'⟩ := exists_textRow hselected hv
  exact ⟨images, videos, ⟨r₁, r₁, r₁, haccess, himages, hvideos⟩, ⟨hi', hv'⟩⟩

end FolderLister

namespace ItemLister

variable {i : ItemLister World Cell} {d : Database} {t : Table} {r : Run World}

theorem query_exec (ht : t.IsTyped) (hi : i.index.Reorders d.index) (hr : d.Contains r.state t)
    (kind : Kind) (b : String) :
    ∃ items, (i.query kind b).exec r = (.ok items, r) ∧ items.length =
      t.entries.countP fun e =>
        Table.isKind kind e && (e.hasPath && (bucketFilter b).all (Entry.inBucket · e)) := by
  obtain ⟨rows, hrows, hperm⟩ := hi.items
    (Database.index_items_exec (fun e he => (ht e he).isListable) hr kind (bucketFilter b))
  refine ⟨rows.map (ItemRow.item i.cwd b), ?_, ?_⟩
  · rw [query, Act.exec_bind_ok hrows]
    rfl
  · rw [List.length_map, hperm.length_eq, List.length_map, Table.length_itemEntries]

theorem length_list (ht : t.IsTyped) (hi : i.index.Reorders d.index)
    (hr : d.Serves t i.hasReadAccess r) (b : String) :
    ∃ items, ((i.list b).exec r).1 = .ok items ∧ items.length =
      t.entries.countP fun e => e.hasPath && (bucketFilter b).all (Entry.inBucket · e) := by
  obtain ⟨r₁, haccess, hcontains⟩ := hr
  obtain ⟨images, himages, himagesLength⟩ := query_exec ht hi hcontains .image b
  obtain ⟨videos, hvideos, hvideosLength⟩ := query_exec ht hi hcontains .video b
  refine ⟨newestFirst images videos, ?_, ?_⟩
  · have hboth : (do
        let images ← i.query .image b
        let videos ← i.query .video b
        return newestFirst images videos : World.Doing (List Item)).exec r₁ =
          (.ok (newestFirst images videos), r₁) := by
      rw [Act.exec_bind_ok himages, Act.exec_bind_ok hvideos]
      rfl
    rw [list, Act.exec_bind_ok haccess, if_pos rfl]
    exact congrArg Prod.fst (Act.exec_recover_ok hboth _ _)
  · rw [newestFirst, List.length_mergeSort, List.length_append, himagesLength, hvideosLength]
    exact (Table.countP_kinds ht _).symm

end ItemLister

def listsBucket (folders : List Folder) (b : String) : Bool :=
  folders.any fun f => f.kind ≠ .allMedia && f.bucketId = b

namespace Index.Entry

/-- Shown among all items, but in no bucket. -/
def isLoose (e : Entry) : Bool := e.hasPath && e.bucketId = .null

/-- Shown among all items, but in a bucket that the folders leave out. -/
def isLeftOut (folders : List Folder) (e : Entry) : Bool :=
  e.hasPath && e.bucketId.text?.any fun b => !listsBucket folders b

def isListed (folders : List Folder) (e : Entry) : Bool :=
  e.hasPath && e.bucketId.text?.any (listsBucket folders)

theorem countP_hasPath {t : Table} (ht : t.IsTyped) (folders : List Folder) :
    t.entries.countP hasPath = t.entries.countP (isListed folders) + t.entries.countP isLoose +
      t.entries.countP (isLeftOut folders) := by
  have hfound : t.entries.countP (fun e => e.isListed folders || e.isLoose) =
      t.entries.countP (isListed folders) + t.entries.countP isLoose := by
    refine countP_add fun e _ => ?_
    rw [isListed, isLoose]
    cases e.bucketId <;> simp [Cell.text?]
  rw [← hfound]
  refine countP_add fun e he => ?_
  have hb := (ht e he).bucketId
  rw [isListed, isLoose, isLeftOut]
  cases hbucket : e.bucketId with
  | null => simp [Cell.text?]
  | text b => cases hlists : listsBucket folders b <;> simp [Cell.text?, hlists]
  | int n | real x | garbled t | blob bytes => rw [hbucket] at hb; cases hb

end Index.Entry

theorem listsBucket_iff {σ β : Type} {l : FolderLister σ β}
    {images videos : List (FolderRow String)} {b : String} :
    listsBucket (l.listed images videos) b ↔
      b ∈ (l.bucketFolders images videos).map (·.bucketId) := by
  simp only [listsBucket, List.any_eq_true, Bool.and_eq_true, decide_eq_true_eq, List.mem_map,
    FolderLister.mem_bucketFolders, and_assoc]

theorem listsBucket_listed {σ β : Type} (l : FolderLister σ β)
    (images videos : List (FolderRow String)) :
    listsBucket (l.listed images videos) =
      ((l.bucketFolders images videos).map (·.bucketId)).contains := by
  funext b
  rw [Bool.eq_iff_iff, listsBucket_iff, List.contains_iff_mem]

theorem Index.Entry.inBucket_asTextRow (b : String) (e : Entry) :
    e.asTextRow.inBucket b = e.inBucket b := by
  rw [FolderRow.inBucket, Entry.asTextRow, Entry.inBucket]
  cases e.bucketId <;> simp [Cell.text?]

section Answered

variable {σ β : Type} {l : FolderLister σ β} {images videos : List (FolderRow String)} {t : Table}

theorem itemCount_of_bucket (h : t.Answers images videos) (ht : t.IsTyped) {f : Folder}
    (hf : f ∈ l.listed images videos) (hkind : f.kind ≠ .allMedia) :
    f.itemCount = t.entries.countP fun e => e.hasPath && e.inBucket f.bucketId := by
  rw [FolderLister.itemCount_of_mem_bucketFolders (FolderLister.mem_bucketFolders.2 ⟨hf, hkind⟩),
    h.countP_eq ht, Int.natCast_inj]
  refine List.countP_congr fun e _ => ?_
  rw [Entry.inBucket_asTextRow, Entry.inBucket]
  simp only [Bool.and_eq_true, decide_eq_true_eq]
  constructor
  · rintro ⟨⟨hpath, -⟩, hb⟩
    exact ⟨hpath, hb⟩
  · rintro ⟨hpath, hb⟩
    exact ⟨⟨hpath, by simp [hb]⟩, hb⟩

theorem itemCount_of_allMedia (h : t.Answers images videos) (ht : t.IsTyped) {f : Folder}
    (hf : f ∈ l.listed images videos) (hkind : f.kind = .allMedia) :
    f.itemCount = t.entries.countP (Entry.isListed (l.listed images videos)) := by
  have hf' : l.allMediaFolder images videos = some f := by
    rw [← Option.mem_toList, ← FolderLister.allMediaEntries_listed]
    exact List.mem_filter.2 ⟨hf, decide_eq_true hkind⟩
  rw [FolderLister.allMediaFolder_itemCount hf', h.countP_eq ht, Int.natCast_inj]
  refine List.countP_congr fun e _ => ?_
  rw [Entry.isListed, Entry.asTextRow, listsBucket_listed]
  cases e.bucketId <;> simp [Cell.text?]

theorem occurs_of_entry (h : t.Answers images videos) (ht : t.IsTyped) {e : Entry} {b : String}
    (he : e ∈ t.entries) (hpath : e.hasPath) (hb : e.bucketId = .text b) :
    occurs (images ++ videos) b := by
  have hcount : 0 < (images ++ videos).countP (FolderRow.inBucket b) := by
    rw [h.countP_eq ht]
    refine List.countP_pos_iff.2 ⟨e, he, ?_⟩
    rw [Entry.inBucket_asTextRow, Entry.inBucket, hb, hpath]
    simp
  obtain ⟨row, hrow, hin⟩ := List.countP_pos_iff.1 hcount
  exact ⟨row, hrow, inBucket_iff.1 hin⟩

theorem isLeftOut_iff (h : t.Answers images videos) (ht : t.IsTyped) {e : Entry}
    (he : e ∈ t.entries) :
    e.isLeftOut (l.listed images videos) ↔ e.hasPath ∧ ∃ b row, e.bucketId = .text b ∧
      leading (images ++ videos) b = some row ∧ row.title = none ∧
      FolderScan.cameraBucket l.camera (images ++ videos) ≠ some b := by
  have hleft : e.isLeftOut (l.listed images videos) ↔ e.hasPath ∧ ∃ b, e.bucketId = .text b ∧
      b ∉ (l.bucketFolders images videos).map (·.bucketId) := by
    rw [Entry.isLeftOut]
    cases e.bucketId <;> simp [Cell.text?, listsBucket_listed]
  simp only [hleft, FolderLister.not_mem_bucketFolders_iff]
  refine and_congr_right fun hpath => ⟨?_, ?_⟩
  · rintro ⟨b, hb, hcamera, htitle⟩
    obtain ⟨row, hrow⟩ := Option.isSome_iff_exists.1
      (leading_isSome.2 (occurs_of_entry h ht he hpath hb))
    exact ⟨b, row, hb, hrow, htitle row hrow, hcamera⟩
  · rintro ⟨b, row, hb, hrow, htitle, hcamera⟩
    refine ⟨b, hb, hcamera, fun row' hrow' => ?_⟩
    obtain rfl : row = row' := Option.some.inj (hrow.symm.trans hrow')
    exact htitle

end Answered

def sampleTable : Table where
  entries :=
    [⟨1, .text "/m/camera/1.jpg", .text "image", .text "c", .null, .null, .int 5, .int 90, .int 3,
        .int 2, .int 7⟩,
      ⟨2, .text "/m/b/2.mp4", .text "video", .text "b", .text "B", .null, .int 6, .null, .int 3,
        .int 2, .int 7⟩,
      ⟨3, .text "/m/x/3.jpg", .text "image", .text "x", .null, .null, .int 4, .null, .int 3,
        .int 2, .int 7⟩,
      ⟨4, .text "/m/4.jpg", .text "image", .null, .text "b", .null, .int 4, .null, .int 3,
        .int 2, .int 7⟩]
  lastId := 4

def sampleWorld : World where
  files := ⟨[(["media.db"], .file (.database (some sampleTable)) 0)]⟩
  cwd := ⟨.slash, []⟩
  home := "/"

def sampleSettings : Settings where
  dataDir := ⟨.slash, []⟩
  mediaRoot := ⟨.slash, []⟩
  blobDir := ⟨.slash, ["blobs"]⟩
  thumbDir := ⟨.slash, ["thumbs"]⟩
  dbPath := ⟨.slash, ["media.db"]⟩
  cameraDir := "/m/camera"
  allMediaTitle := "All media"
  renderQuality := 80
  maxWorkers := 4

theorem sample_serves : sampleSettings.database.Serves sampleTable
    sampleSettings.pathPermission.hasReadAccess ⟨sampleWorld, []⟩ :=
  ⟨⟨sampleWorld, []⟩, rfl, by decide, ["media.db"], 0, by decide, by decide⟩

end MediaCatalog
