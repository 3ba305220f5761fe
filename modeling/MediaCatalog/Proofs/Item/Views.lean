import Mathlib.Data.List.Dedup
import Mathlib.Data.List.Perm.Basic
import MediaCatalog.Proofs.Index.Order
import MediaCatalog.Proofs.Index.Reading
import MediaCatalog.Proofs.Item.Listing
import MediaCatalog.Proofs.Settings
import MediaCatalog.Repository.Wiring

namespace MediaCatalog

open Index

section Partition

variable {α κ : Type} {p q : α → Bool} {l : List α}

theorem filter_append_filter_perm (h : ∀ a ∈ l, q a = !p a) :
    (l.filter p ++ l.filter q).Perm l := by
  rw [List.filter_congr h]
  exact List.filter_append_perm p l

theorem filter_or_perm (h : ∀ a ∈ l, p a → q a = false) :
    (l.filter fun a => p a || q a).Perm (l.filter p ++ l.filter q) := by
  refine (filter_append_filter_perm (p := p) (q := q) fun a ha => ?_).symm.trans ?_
  · obtain ⟨ha, hpq⟩ := List.mem_filter.1 ha
    cases hp : p a with
    | true => exact h a ha hp
    | false => simpa [hp] using hpq
  · rw [List.filter_filter, List.filter_filter]
    refine .of_eq (congrArg₂ _ (List.filter_congr fun a _ => ?_) (List.filter_congr fun a _ => ?_))
    · cases p a <;> rfl
    · cases q a <;> simp

theorem filter_key_perm [DecidableEq κ] {key : α → Option κ} {keys : List κ} (h : keys.Nodup)
    (l : List α) : (l.filter fun a => (key a).any keys.contains).Perm
      (keys.flatMap fun k => l.filter (key · = some k)) := by
  induction keys with
  | nil =>
      rw [List.flatMap_nil, List.filter_eq_nil_iff.2]
      intro a _
      cases key a <;> simp
  | cons k keys ih =>
      obtain ⟨hk, hkeys⟩ := List.nodup_cons.1 h
      rw [List.flatMap_cons]
      refine .trans (.of_eq (List.filter_congr fun a _ => ?_))
        ((filter_or_perm fun a _ ha => ?_).trans ((ih hkeys).append_left _))
      · cases key a <;> simp
      · rw [of_decide_eq_true ha]
        simpa using hk

end Partition

/-- What a listing says of an item, but for the bucket. -/
def Item.unfiled (i : Item) : Item := { i with bucketId := none }

namespace Index

namespace Entry

/-- What the listings of items need: one of the two kinds, a path, a bucket and a mime type told by
texts, a time, and whole numbers. -/
structure IsPresentable (e : Entry) : Prop extends IsListable e where
  kind : Table.isKind .image e ∨ Table.isKind .video e
  bucketId : e.bucketId.holdsText
  takenAt_ne : e.takenAt ≠ .null

instance (e : Entry) : Decidable e.IsPresentable :=
  decidable_of_iff (((e.takenAt.holdsInt ∧ e.orientation.holdsInt ∧ e.width.holdsInt ∧
      e.height.holdsInt ∧ e.size.holdsInt) ∧ e.path.holdsText ∧ e.mimeType.isLegible) ∧
      (Table.isKind .image e ∨ Table.isKind .video e) ∧ e.bucketId.holdsText ∧ e.takenAt ≠ .null)
    ⟨fun ⟨⟨⟨a, b, c, d, e⟩, f, g⟩, h, i, j⟩ => ⟨⟨⟨a, b, c, d, e⟩, f, g⟩, h, i, j⟩,
      fun ⟨⟨⟨a, b, c, d, e⟩, f, g⟩, h, i, j⟩ => ⟨⟨⟨a, b, c, d, e⟩, f, g⟩, h, i, j⟩⟩

def kindOf (e : Entry) : Kind := if Table.isKind .image e then .image else .video

def item (cwd : Path) (b : String) (e : Entry) : Item := (e.asItemRow e.kindOf).item cwd b

def time (e : Entry) : Int := e.takenAt.whole

/-- The entry has no bucket, or the one that stands for all. -/
def isUnfiled (e : Entry) : Bool := e.bucketId = .null || e.inBucket allMediaBucket

def isShown (b : String) (e : Entry) : Bool :=
  e.hasPath && (ItemLister.bucketFilter b).all (inBucket · e)

variable {e : Entry}

theorem kindOf_eq {kind : Kind} (h : e.IsPresentable) (hkind : Table.isKind kind e) :
    e.kindOf = kind := by
  cases kind with
  | image => exact if_pos hkind
  | video =>
      rw [kindOf, if_neg]
      rw [Table.isKind_video h.kind] at hkind
      simpa using hkind

theorem IsPresentable.takenAt_eq (h : e.IsPresentable) : e.takenAt = .int e.takenAt.whole := by
  have hint := h.takenAt
  have hnull := h.takenAt_ne
  cases hcell : e.takenAt with
  | null => exact absurd hcell hnull
  | int n => rfl
  | real x | text s | garbled t | blob bytes =>
      rw [hcell] at hint
      cases hint

theorem newestFirst_eq {f : Entry} (he : e.IsPresentable) (hf : f.IsPresentable) :
    Table.newestFirst e f = StableSort.descending time e f := by
  rw [Bool.eq_iff_iff, newestFirst_iff, StableSort.descending_iff, he.takenAt_eq, hf.takenAt_eq,
    Cell.key_int_le_iff, time, time, he.takenAt_eq, hf.takenAt_eq]

theorem item_unfiled (cwd : Path) (b b' : String) (e : Entry) :
    (e.item cwd b).unfiled = (e.item cwd b').unfiled := rfl

end Entry

namespace Table

/-- The buckets that entries are in, but for the one that stands for all. -/
def bucketIds (t : Table) : List String :=
  ((t.entries.filterMap (·.bucketId.text?)).filter (· ≠ allMediaBucket)).dedup

theorem mem_bucketIds {t : Table} {b : String} :
    b ∈ t.bucketIds ↔ b ≠ allMediaBucket ∧ ∃ e ∈ t.entries, e.bucketId.text? = some b := by
  rw [bucketIds, List.mem_dedup, List.mem_filter, List.mem_filterMap, and_comm, decide_eq_true_iff]

theorem isUnfiled_eq {t : Table} {e : Entry} (he : e ∈ t.entries) (h : e.bucketId.holdsText) :
    e.isUnfiled = !e.bucketId.text?.any t.bucketIds.contains := by
  rw [Entry.isUnfiled, Entry.inBucket]
  cases hcell : e.bucketId with
  | null => rfl
  | text b =>
      have hmem : b ∈ t.bucketIds ↔ b ≠ allMediaBucket := by
        rw [mem_bucketIds, and_iff_left ⟨e, he, congrArg Cell.text? hcell⟩]
      rw [Bool.eq_iff_iff]
      simp [Cell.text?, hmem]
  | int n | real x | garbled t | blob bytes =>
      rw [hcell] at h
      cases h

end Table

end Index

/-- An index that answers requests for items with the entries that the table selects, newest first;
entries of the same time come in an order of its own, which is the same every time. -/
structure MediaIndex.Lists (ix : MediaIndex World Cell) (d : Database) (t : Table)
    (order : Kind → Option String → List Entry) : Prop where
  exec : ∀ {r}, d.Contains r.state t → ∀ kind b,
    (ix.items kind b).exec r = (.ok ((order kind b).map (Entry.asItemRow kind)), r)
  perm : ∀ kind b, (order kind b).Perm (t.itemEntries kind b)
  newest : ∀ kind b, (order kind b).Pairwise fun e f => StableSort.descending Entry.time e f

section Views

variable {l : ItemLister World Cell} {d : Database} {t : Table}
  {order : Kind → Option String → List Entry} {r : Run World} {b : String} {e : Entry}

def shownEntries (order : Kind → Option String → List Entry) (b : String) : List Entry :=
  (order .image (ItemLister.bucketFilter b) ++ order .video (ItemLister.bucketFilter b)).mergeSort
    (StableSort.descending Entry.time)

theorem MediaIndex.Lists.mem_order (h : l.index.Lists d t order) {kind : Kind} {b : Option String}
    (he : e ∈ order kind b) : e ∈ t.entries ∧ Table.isKind kind e := by
  have hselected := (h.perm kind b).mem_iff.1 he
  rw [Table.itemEntries, List.mem_mergeSort, List.mem_filter] at hselected
  simp only [Bool.and_eq_true] at hselected
  exact ⟨hselected.1, hselected.2.1.1⟩

variable (ht : ∀ e ∈ t.entries, e.IsPresentable) (h : l.index.Lists d t order)
include ht h

theorem map_order_item (kind : Kind) (b : Option String) (c : String) :
    ((order kind b).map (Entry.asItemRow kind)).map (ItemRow.item l.cwd c) =
      (order kind b).map (Entry.item l.cwd c) := by
  rw [List.map_map]
  refine List.map_congr_left fun e he => ?_
  obtain ⟨he, hkind⟩ := h.mem_order he
  rw [Function.comp_apply, Entry.item, Entry.kindOf_eq (ht e he) hkind]

theorem listed_eq_map_shown (b : String) :
    l.listed b ((order .image (ItemLister.bucketFilter b)).map (Entry.asItemRow .image))
        ((order .video (ItemLister.bucketFilter b)).map (Entry.asItemRow .video)) =
      (shownEntries order b).map (Entry.item l.cwd b) := by
  rw [ItemLister.listed, map_order_item ht h, map_order_item ht h, newestFirst, shownEntries,
    ← List.map_append]
  refine (List.map_mergeSort fun e _ f _ => ?_).symm
  rfl

theorem list_exec_shown (hr : d.Serves t l.hasReadAccess r) (b : String) :
    ((l.list b).exec r).1 = .ok ((shownEntries order b).map (Entry.item l.cwd b)) := by
  obtain ⟨r₁, haccess, hcontains⟩ := hr
  rw [ItemLister.list_exec ⟨r₁, r₁, r₁, haccess, h.exec hcontains _ _, h.exec hcontains _ _⟩,
    listed_eq_map_shown ht h]

theorem shownEntries_perm (b : String) :
    (shownEntries order b).Perm (t.entries.filter (Entry.isShown b)) := by
  have hselected (kind : Kind) : (order kind (ItemLister.bucketFilter b)).Perm
      ((t.entries.filter (Entry.isShown b)).filter (Table.isKind kind)) := by
    refine (h.perm kind _).trans ((List.mergeSort_perm _ _).trans ?_)
    rw [List.filter_filter]
    refine .of_eq (List.filter_congr fun e _ => ?_)
    rw [Entry.isShown]
    cases ItemLister.bucketFilter b <;> simp [Entry.hasPath, Entry.inBucket, Bool.and_assoc]
  refine (List.mergeSort_perm _ _).trans (((hselected .image).append (hselected .video)).trans ?_)
  refine filter_append_filter_perm fun e he => ?_
  exact Table.isKind_video (ht e (List.mem_filter.1 he).1).kind

theorem shownEntries_perm_buckets : (shownEntries order allMediaBucket).Perm
    (t.bucketIds.flatMap (shownEntries order) ++
      t.entries.filter fun e => e.hasPath && e.isUnfiled) := by
  have hall : t.entries.filter (Entry.isShown allMediaBucket) = t.entries.filter Entry.hasPath := by
    refine List.filter_congr fun e _ => ?_
    simp [Entry.isShown, ItemLister.bucketFilter]
  have hbucket {b : String} (hb : b ∈ t.bucketIds) : (shownEntries order b).Perm
      ((t.entries.filter Entry.hasPath).filter (·.bucketId.text? = some b)) := by
    refine (shownEntries_perm ht h b).trans (.of_eq ?_)
    rw [List.filter_filter]
    refine List.filter_congr fun e _ => ?_
    rw [Entry.isShown, ItemLister.bucketFilter, if_neg (Table.mem_bucketIds.1 hb).1, Bool.and_comm]
    cases hcell : e.bucketId <;> simp [Entry.inBucket, Cell.text?, hcell]
  have hunfiled : (((t.entries.filter Entry.hasPath).filter fun e =>
        e.bucketId.text?.any t.bucketIds.contains) ++
      t.entries.filter fun e => e.hasPath && e.isUnfiled).Perm
        (t.entries.filter Entry.hasPath) := by
    have hsplit : (t.entries.filter fun e => e.hasPath && e.isUnfiled) =
        (t.entries.filter Entry.hasPath).filter Entry.isUnfiled := by
      rw [List.filter_filter]
      exact List.filter_congr fun e _ => Bool.and_comm _ _
    rw [hsplit]
    refine filter_append_filter_perm fun e he => ?_
    have hmem := (List.mem_filter.1 he).1
    exact Table.isUnfiled_eq hmem (ht e hmem).bucketId
  refine ((shownEntries_perm ht h allMediaBucket).trans (.of_eq hall)).trans
    (hunfiled.symm.trans (.append_right _ ?_))
  exact (filter_key_perm (List.nodup_dedup _) _).trans
    (.flatMap_left _ fun b hb => (hbucket hb).symm)

theorem filter_shownEntries : (shownEntries order allMediaBucket).filter (Table.isKind .image) =
    order .image none := by
  have hvideos : (order .video none).filter (Table.isKind .image) = [] := by
    refine List.filter_eq_nil_iff.2 fun e he himage => ?_
    obtain ⟨he, hvideo⟩ := h.mem_order he
    rw [Table.isKind_video (ht e he).kind, himage] at hvideo
    cases hvideo
  rw [shownEntries, StableSort.filter_mergeSort (StableSort.descending_trans Entry.time)
    (StableSort.descending_total _) (StableSort.descending_of_eq _)
    (StableSort.eq_of_descending _), ItemLister.bucketFilter, if_pos rfl, List.filter_append,
    hvideos, List.append_nil, List.filter_eq_self.2 fun e he => (h.mem_order he).2]
  exact List.mergeSort_of_pairwise (h.newest .image none)

theorem mostRecent_exec (hr : d.Serves t l.hasReadAccess r) : (l.mostRecent.exec r).1 =
    .ok (((shownEntries order allMediaBucket).find? (Table.isKind .image)).map
      (Entry.item l.cwd allMediaBucket)) := by
  obtain ⟨r₁, haccess, hcontains⟩ := hr
  have hfirst : (do return (← l.query .image allMediaBucket).head? :
      World.Doing (Option Item)).exec r₁ =
        (.ok ((order .image none).map (Entry.item l.cwd allMediaBucket)).head?, r₁) := by
    rw [Act.exec_bind_ok (ItemLister.query_of_items (h.exec hcontains _ _)), map_order_item ht h]
    rfl
  rw [ItemLister.mostRecent, Act.exec_bind_ok haccess, if_pos rfl, Act.exec_recover_ok hfirst,
    List.head?_map, ← filter_shownEntries ht h, List.head?_filter]

end Views

theorem Index.Database.lists_index {d : Database} {t : Table}
    (ht : ∀ e ∈ t.entries, e.IsPresentable) : d.index.Lists d t t.itemEntries where
  exec hr kind b := index_items_exec (fun e he => (ht e he).toIsListable) hr kind b
  perm _ _ := .refl _
  newest kind b := by
    rw [Table.itemEntries, StableSort.mergeSort_congr fun e he f hf =>
      Entry.newestFirst_eq (ht e (List.mem_filter.1 he).1) (ht f (List.mem_filter.1 hf).1)]
    exact List.pairwise_mergeSort (StableSort.descending_trans _) (StableSort.descending_total _) _

def viewedTable : Table where
  entries :=
    [⟨1, .text "/m/1.mp4", .text "video", .text "b", .null, .null, .int 6, .null, .int 4, .int 3,
        .int 7⟩,
      ⟨2, .text "/m/2.jpg", .text "image", .text "c", .null, .null, .int 6, .int 90, .int 4,
        .int 3, .int 7⟩,
      ⟨3, .text "/m/3.jpg", .text "image", .text allMediaBucket, .null, .null, .int 8, .int 0,
        .int 4, .int 3, .int 7⟩,
      ⟨4, .text "/m/4.jpg", .text "image", .null, .null, .null, .int 9, .null, .int 4, .int 3,
        .int 7⟩,
      ⟨5, .null, .text "image", .text "c", .null, .null, .int 9, .null, .int 4, .int 3, .int 7⟩]
  lastId := 5

def viewedWorld : World where
  files := ⟨[(["d"], .file (.database (some viewedTable)) 0), (["m"], .directory)]⟩
  cwd := ⟨.slash, []⟩
  home := "/"

end MediaCatalog
