import MediaCatalog.Proofs.Folder.Counts
import MediaCatalog.Proofs.Index.Order
import MediaCatalog.Proofs.Index.Reading
import MediaCatalog.Proofs.Item.Listing

namespace MediaCatalog

namespace Index.Database

open Act

variable {d : Database} {r : Run World}

theorem failsOnly_store (p : Path) (bytes : List UInt8) :
    FailsOnly (fun f => f.cause ≠ .indexQuery) (World.store p bytes) := by
  intro r f r' hf
  rw [World.exec_store] at hf
  cases hstore : r.state.files.store r.state.cwd p (.bytes bytes) r.state.clock with
  | ok files =>
      rw [hstore] at hf
      cases hf
  | error g =>
      rw [hstore] at hf
      cases hf
      rcases FileSystem.failing_eq_error.1 hstore with ⟨-, rfl⟩ | ⟨-, e, -, rfl⟩
      · decide
      · intro hcause
        cases e <;> cases hcause

theorem failsOnly_connect (d : Database) :
    FailsOnly (fun f => f.cause ≠ .indexQuery) d.connect := by
  rw [connect]
  split
  · intro r f r' hf
    cases hf
    decide
  refine failsOnly_getState.bind fun w => ?_
  split
  · exact failsOnly_fail (by decide)
  · exact (failsOnly_store d.path []).bind fun _ => failsOnly_pure _
  · split
    · exact failsOnly_pure _
    · exact failsOnly_fail (by decide)

theorem failsOnly_table (d : Database) : FailsOnly (fun f => f.cause ≠ .indexQuery) d.table := by
  have htable? : FailsOnly (fun f => f.cause ≠ .indexQuery) d.table? := by
    refine d.failsOnly_connect.bind fun content => ?_
    split
    · exact failsOnly_pure none
    · exact failsOnly_fail (by decide)
    · exact failsOnly_pure _
  refine htable?.bind fun t => ?_
  cases t with
  | some t => exact failsOnly_pure t
  | none => exact failsOnly_fail (by decide)

/-- A query fails as a query when the database itself fails or when a text of the selection is not
UTF-8, and never for anything else in a row. -/
theorem isIndexQuery_iff {α : Type} {columns : List Column} {select : Table → List Entry}
    {rows : List Entry → Except Failure α}
    (hrows : ∀ entries f, rows entries = .error f → f.cause ≠ .indexQuery) :
    (∃ f, ((do Act.ofExcept (rows (← d.fetch columns select)) : World.Doing α).exec r).1 =
        .error f ∧ f.cause = .indexQuery) ↔
      (∃ f, (d.table.exec r).1 = .error f ∧ isDatabaseFault f) ∨
        ∃ t, (d.table.exec r).1 = .ok t ∧
          (select t).all (Entry.isDecodable columns) = false := by
  have hother := d.failsOnly_table r
  rw [exec_bind, fetch, exec_recover, exec_bind]
  rcases htable : d.table.exec r with ⟨f | t, r'⟩
  · by_cases hf : isDatabaseFault f
    · simp only [if_pos hf, exec_fail]
      exact iff_of_true ⟨_, rfl, rfl⟩ (.inl ⟨f, rfl, hf⟩)
    · simp only [if_neg hf]
      refine iff_of_false ?_ ?_
      · rintro ⟨g, hg, hcause⟩
        cases hg
        exact hother f r' htable hcause
      · rintro (⟨g, hg, hfault⟩ | ⟨t, ht, -⟩)
        · cases hg
          exact hf hfault
        · cases ht
  · simp only [exec_ofExcept]
    cases hdecodes : (select t).all (Entry.isDecodable columns) with
    | true =>
        simp only [decoded_eq_ok (List.all_eq_true.1 hdecodes)]
        refine iff_of_false ?_ ?_
        · rintro ⟨g, hg, hcause⟩
          exact hrows _ g hg hcause
        · rintro (⟨g, hg, -⟩ | ⟨u, hu, hnot⟩)
          · cases hg
          · cases hu
            exact Bool.false_ne_true (hnot.symm.trans hdecodes)
    | false =>
        obtain ⟨f, hf, hcause⟩ := decoded_eq_error hdecodes
        have hfault : isDatabaseFault f := by rw [isDatabaseFault, hcause]
        simp only [hf, if_pos hfault, exec_fail]
        exact iff_of_true ⟨_, rfl, rfl⟩ (.inr ⟨t, rfl, hdecodes⟩)

end Index.Database

open Index

namespace Settings

open Database ItemLister

variable {s : Settings} {access : World.Doing Bool} {t : Index.Table} {r : Run World}

theorem lists_folders (cwd : Path) (h : s.database.Serves t access r) :
    Lists IsRowFault ((t.folderRowFate .image).next ((t.folderRowFate .video).next
        (.ofBool ((s.folderLister access cwd).scans (t.folderRows .image)
          (t.folderRows .video)).isLegible)))
      ((s.folderLister access cwd).listed (t.folderRows .image) (t.folderRows .video))
      ((s.folderLister access cwd).list.exec r).1 := by
  obtain ⟨r₁, haccess, hr⟩ := h
  obtain ⟨_, himages, hi⟩ := exec_indexFolders hr .image
  obtain ⟨_, hvideos, hv⟩ := exec_indexFolders hr .video
  exact FolderLister.lists_list haccess himages hvideos hi hv (fun f hf => hf.ne_indexQuery)
    fun f hf => .inr (.inr hf)

theorem lists_items (cwd : Path) (b : String) (h : s.database.Serves t access r) :
    Lists IsRowFault
      ((t.itemRowFate .image (bucketFilter b)).next (t.itemRowFate .video (bucketFilter b)))
      ((s.itemLister access cwd).listed b (t.itemRows .image (bucketFilter b))
        (t.itemRows .video (bucketFilter b)))
      (((s.itemLister access cwd).list b).exec r).1 := by
  obtain ⟨r₁, haccess, hr⟩ := h
  obtain ⟨_, himages, hi⟩ := exec_indexItems hr .image (bucketFilter b)
  obtain ⟨_, hvideos, hv⟩ := exec_indexItems hr .video (bucketFilter b)
  exact ItemLister.lists_list haccess himages hvideos hi hv fun f hf => hf.ne_indexQuery

/-- A question to an index that is there is answered with all entries that it selects, in order, or
with none of them. None come back if a number of one of them cannot be read, which is no failure of
the database, or if a text of one of them is not UTF-8, which counts as one. Lists that need such an
entry fail or are empty, and they also fail for a path that is no text, or for a label that is no
UTF-8. -/
theorem lists_unless_spoiled (cwd : Path) (h : s.database.Serves t access r) :
    (∀ q, s.database.Contains q.state t → ∀ kind,
      (∃ out, (s.database.queryFolders kind).exec q = (out, q) ∧
        Ends IsNumberFault (t.folderFate kind) (t.folderRecords kind) out) ∧
      ∀ b, ∃ out, (s.database.queryItems kind b).exec q = (out, q) ∧
        Ends IsNumberFault (t.itemFate kind b) (t.itemRecords kind b) out) ∧
    Lists IsRowFault ((t.folderRowFate .image).next ((t.folderRowFate .video).next
        (.ofBool ((s.folderLister access cwd).scans (t.folderRows .image)
          (t.folderRows .video)).isLegible)))
      ((s.folderLister access cwd).listed (t.folderRows .image) (t.folderRows .video))
      ((s.folderLister access cwd).list.exec r).1 ∧
    (∀ b, Lists IsRowFault
      ((t.itemRowFate .image (bucketFilter b)).next (t.itemRowFate .video (bucketFilter b)))
      ((s.itemLister access cwd).listed b (t.itemRows .image (bucketFilter b))
        (t.itemRows .video (bucketFilter b)))
      (((s.itemLister access cwd).list b).exec r).1) ∧
    (∀ e : Entry, e.IsNumeric → ∀ kind,
      e.isReadable kind ∧ e.readItem kind = e.asItemRecord kind ∧
        e.readFolder = e.asFolderRecord) ∧
    (∀ kind, ((t.folderEntries kind).Pairwise fun e f => e.folderKey ≤ f.folderKey) ∧
      ∀ b, (t.itemEntries kind b).Pairwise fun e f => f.takenAt.key ≤ e.takenAt.key) ∧
    ∀ (q : Run World) kind,
      ((∃ f, ((s.database.queryFolders kind).exec q).1 = .error f ∧ f.cause = .indexQuery) ↔
        (∃ f, (s.database.table.exec q).1 = .error f ∧ isDatabaseFault f) ∨
          ∃ u, (s.database.table.exec q).1 = .ok u ∧ u.decodesFolders kind = false) ∧
      ∀ b, (∃ f, ((s.database.queryItems kind b).exec q).1 = .error f ∧ f.cause = .indexQuery) ↔
        (∃ f, (s.database.table.exec q).1 = .error f ∧ isDatabaseFault f) ∨
          ∃ u, (s.database.table.exec q).1 = .ok u ∧ u.decodesItems kind b = false := by
  refine ⟨fun q hq kind => ⟨exec_queryFolders hq kind, exec_queryItems hq kind⟩,
    lists_folders cwd h, fun b => lists_items cwd b h, fun e he kind => he.read kind,
    fun kind => ⟨t.folderEntries_ordered kind, t.itemEntries_ordered kind⟩,
    fun q kind => ⟨isIndexQuery_iff ?_, fun b => isIndexQuery_iff ?_⟩⟩
  · exact fun entries f hf => IsNumberFault.ne_indexQuery
      (Ends.refusal_of_error (hf ▸ Ends.mapM Entry.ends_folderRecord entries))
  · exact fun entries f hf => IsNumberFault.ne_indexQuery
      (Ends.refusal_of_error (hf ▸ Ends.mapM (Entry.ends_itemRecord kind) entries))

def soundEntry : Entry :=
  ⟨1, .text "/m/1.jpg", .text "image", .text "a", .text "A", .null, .int 3, .null, .int 0, .int 0,
    .int 0⟩

def blobEntry : Entry :=
  ⟨2, .blob [0x2F, 0x6D], .text "image", .text "b", .text "B", .null, .int 5, .null, .int 0, .int 0,
    .int 0⟩

def blobTable : Index.Table := ⟨[soundEntry, blobEntry], 2⟩

def indexWorld (t : Index.Table) : World where
  files := ⟨[(["media.db"], .file (.database (some t)) 0)]⟩
  cwd := ⟨.slash, []⟩
  home := "/"

theorem indexWorld_contains (t : Index.Table) :
    sampleSettings.database.Contains (indexWorld t) t :=
  ⟨by decide, ["media.db"], 0, rfl, rfl⟩

theorem indexWorld_serves (t : Index.Table) : sampleSettings.database.Serves t
    sampleSettings.pathPermission.hasReadAccess ⟨indexWorld t, []⟩ :=
  ⟨⟨indexWorld t, []⟩, rfl, indexWorld_contains t⟩

theorem folderEntries_blobTable : blobTable.folderEntries .image = [soundEntry, blobEntry] :=
  List.mergeSort_of_pairwise (by decide)

/-- Both entries come back from the query, and the bucket of the sound one is listed. The folders
are not, for the other one's path. -/
theorem lists_unless_spoiled_sample :
    sampleSettings.database.Serves blobTable sampleSettings.pathPermission.hasReadAccess
        ⟨indexWorld blobTable, []⟩ ∧
      (∃ records, (sampleSettings.database.queryFolders .image).exec ⟨indexWorld blobTable, []⟩ =
        (.ok records, ⟨indexWorld blobTable, []⟩) ∧ records.length = 2) ∧
      (((sampleSettings.itemLister sampleSettings.pathPermission.hasReadAccess
          ⟨.slash, []⟩).list "a").exec ⟨indexWorld blobTable, []⟩).1 =
        .ok [(soundEntry.asItemRow .image).item ⟨.slash, []⟩ "a"] ∧
      ∃ f, ((sampleSettings.folderLister sampleSettings.pathPermission.hasReadAccess
          ⟨.slash, []⟩).list.exec ⟨indexWorld blobTable, []⟩).1 = .error f ∧ IsRowFault f := by
  obtain ⟨hqueries, hfolders, hitems, -⟩ :=
    lists_unless_spoiled ⟨.slash, []⟩ (indexWorld_serves blobTable)
  have himages : blobTable.itemEntries .image (bucketFilter "a") = [soundEntry] :=
    List.mergeSort_singleton _
  have hvideos : blobTable.itemEntries .video (bucketFilter "a") = [] := List.mergeSort_nil
  have hread : blobTable.folderFate .image = .answered := by
    rw [Index.Table.folderFate, Index.Table.decodesFolders, folderEntries_blobTable]
    decide
  refine ⟨indexWorld_serves blobTable, ?_, ?_, ?_⟩
  · obtain ⟨⟨out, hexec, hout⟩, -⟩ :=
      hqueries ⟨indexWorld blobTable, []⟩ (indexWorld_contains blobTable) .image
    rw [hread] at hout
    refine ⟨_, hout.eq_ok ▸ hexec, ?_⟩
    rw [Index.Table.folderRecords, folderEntries_blobTable]
    rfl
  · have hlist := hitems "a"
    have hfate : blobTable.itemRowFate .image (bucketFilter "a") = .answered ∧
        blobTable.itemRowFate .video (bucketFilter "a") = .answered := by
      simp only [Index.Table.itemRowFate, Index.Table.itemFate, Index.Table.decodesItems,
        Index.Table.itemRecords, himages, hvideos]
      decide
    rw [hfate.1, hfate.2] at hlist
    rw [hlist.eq_ok, Index.Table.itemRows, Index.Table.itemRows, Index.Table.itemRecords,
      Index.Table.itemRecords, himages, hvideos]
    exact congrArg Except.ok (List.mergeSort_singleton _)
  · have hrefused : blobTable.folderRowFate .image = .refused := by
      rw [Index.Table.folderRowFate, hread, Index.Table.folderRecords, folderEntries_blobTable]
      decide
    rw [hrefused] at hfolders
    exact hfolders.exists_refusal

def soundRow : Index.Table.NewRow :=
  [("path", .text "/m/1.jpg"), ("kind", .text "image"), ("bucket_id", .text "a"),
    ("bucket_title", .text "A"), ("taken_at", .int 3)]

def spoiledRow : Index.Table.NewRow :=
  [("path", .text "/m/2.jpg"), ("kind", .text "image"), ("bucket_id", .text "b"),
    ("bucket_title", .text "B"), ("taken_at", .text "abc")]

def spoiledEntry : Entry :=
  ⟨2, .text "/m/2.jpg", .text "image", .text "b", .text "B", .null, .text "abc", .null, .int 0,
    .int 0, .int 0⟩

def spoiledTable : Index.Table := ⟨[soundEntry, spoiledEntry], 2⟩

theorem spoiledTable_folderFate : spoiledTable.folderFate .image = .refused := by
  have hentries : spoiledTable.folderEntries .image = [soundEntry, spoiledEntry] :=
    List.mergeSort_of_pairwise (by decide)
  rw [Index.Table.folderFate, Index.Table.decodesFolders, hentries]
  decide

theorem spoiledTable_itemFate : spoiledTable.itemFate .image none = .refused := by
  have hdecodes : spoiledTable.decodesItems .image none = true := by
    have hall : ∀ e ∈ spoiledTable.entries, e.isDecodable (itemColumns .image) := by decide
    exact List.all_eq_true.2 fun e he => hall e (Index.Table.mem_itemEntries he).1
  have hunreadable : (spoiledTable.itemEntries .image none).all (Entry.isReadable .image) = false :=
    List.all_eq_false.2 ⟨spoiledEntry, List.mem_mergeSort.2 (by decide), by decide⟩
  rw [Index.Table.itemFate, hdecodes, hunreadable]
  rfl

/-- One row that the schema takes hides another one that is sound, and the lists fail for it. -/
theorem lists_spoiled :
    (∃ t, ({} : Index.Table).insert soundRow = .ok t ∧ t.insert spoiledRow = .ok spoiledTable) ∧
      sampleSettings.database.Serves spoiledTable sampleSettings.pathPermission.hasReadAccess
        ⟨indexWorld spoiledTable, []⟩ ∧
      soundEntry.IsTyped ∧ soundEntry ∈ spoiledTable.folderEntries .image ∧
      soundEntry ∈ spoiledTable.itemEntries .image none ∧
      (∃ f, ((sampleSettings.database.queryFolders .image).exec ⟨indexWorld spoiledTable, []⟩).1 =
        .error f ∧ f.cause ≠ .indexQuery) ∧
      (∃ f, ((sampleSettings.database.queryItems .image none).exec
        ⟨indexWorld spoiledTable, []⟩).1 = .error f ∧ f.cause ≠ .indexQuery) ∧
      (∃ f, ((sampleSettings.folderLister sampleSettings.pathPermission.hasReadAccess
        ⟨.slash, []⟩).list.exec ⟨indexWorld spoiledTable, []⟩).1 = .error f) ∧
      ∃ f, (((sampleSettings.itemLister sampleSettings.pathPermission.hasReadAccess
        ⟨.slash, []⟩).list allMediaBucket).exec ⟨indexWorld spoiledTable, []⟩).1 = .error f := by
  have hcontains := indexWorld_contains spoiledTable
  have hserves := indexWorld_serves spoiledTable
  refine ⟨⟨⟨[soundEntry], 1⟩, by decide, by decide⟩, hserves, by decide,
    List.mem_mergeSort.2 (by decide), List.mem_mergeSort.2 (by decide), ?_, ?_, ?_, ?_⟩
  · obtain ⟨out, hexec, hout⟩ := exec_queryFolders (r := ⟨_, []⟩) hcontains .image
    rw [spoiledTable_folderFate] at hout
    obtain ⟨f, rfl, hf⟩ := hout.exists_refusal
    exact ⟨f, congrArg Prod.fst hexec, hf.ne_indexQuery⟩
  · obtain ⟨out, hexec, hout⟩ := exec_queryItems (r := ⟨_, []⟩) hcontains .image none
    rw [spoiledTable_itemFate] at hout
    obtain ⟨f, rfl, hf⟩ := hout.exists_refusal
    exact ⟨f, congrArg Prod.fst hexec, hf.ne_indexQuery⟩
  · have hlist := lists_folders ⟨.slash, []⟩ hserves
    rw [Index.Table.folderRowFate, spoiledTable_folderFate] at hlist
    exact hlist.exists_refusal.imp fun f hf => hf.1
  · have hlist := lists_items ⟨.slash, []⟩ allMediaBucket hserves
    rw [show bucketFilter allMediaBucket = none from rfl, Index.Table.itemRowFate,
      spoiledTable_itemFate] at hlist
    exact hlist.exists_refusal.imp fun f hf => hf.1

end Settings

end MediaCatalog
