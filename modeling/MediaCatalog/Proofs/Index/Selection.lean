import MediaCatalog.Index.Database
import MediaCatalog.Proofs.Folder.Relabel

namespace MediaCatalog

/-- Answers with the rows of the other index, in whatever order they come. -/
structure MediaIndex.Reorders {σ β : Type} (ix jx : MediaIndex σ β) : Prop where
  folders : ∀ {kind r rows r'}, (jx.folders kind).exec r = (.ok rows, r') →
    ∃ rows', (ix.folders kind).exec r = (.ok rows', r') ∧ rows'.Perm rows
  items : ∀ {kind b r rows r'}, (jx.items kind b).exec r = (.ok rows, r') →
    ∃ rows', (ix.items kind b).exec r = (.ok rows', r') ∧ rows'.Perm rows

theorem MediaIndex.Reorders.refl {σ β : Type} (ix : MediaIndex σ β) : ix.Reorders ix where
  folders h := ⟨_, h, .refl _⟩
  items h := ⟨_, h, .refl _⟩

namespace Index

namespace Cell

def holdsText : Cell → Bool
  | .null | .text _ => true
  | _ => false

def holdsInt : Cell → Bool
  | .null | .int _ => true
  | _ => false

def whole : Cell → Int
  | .int n => n
  | _ => 0

def isLegible (c : Cell) : Bool := Label.isLegible c.orEmpty

def spelling (c : Cell) : String := (Label.text? c.orEmpty).getD ""

def isDecodable : Cell → Bool
  | .garbled _ => false
  | _ => true

variable {c : Cell}

theorem isDecodable_of {p : Cell → Bool} (hp : ∀ t, p (.garbled t) = false) (h : p c) :
    c.isDecodable := by
  cases c with
  | garbled t =>
      rw [hp t] at h
      cases h
  | null | int n | real x | text s | blob bytes => rfl

theorem isDecodable_of_holdsInt (h : c.holdsInt) : c.isDecodable := isDecodable_of (fun _ => rfl) h

theorem isDecodable_of_holdsText (h : c.holdsText) : c.isDecodable :=
  isDecodable_of (fun _ => rfl) h

theorem isDecodable_of_isLegible (h : c.isLegible) : c.isDecodable :=
  isDecodable_of (fun _ => rfl) h

theorem isSome_of_holdsText (h : c.holdsText) (hnull : c ≠ .null) : c.text?.isSome := by
  cases c with
  | text s => rfl
  | null => exact absurd rfl hnull
  | int n | real x | garbled t | blob bytes => cases h

theorem label_of_holdsText (h : c.holdsText) : c.label = c.text?.map .text := by
  cases c with
  | null | text s => rfl
  | int n | real x | garbled t | blob bytes => cases h

theorem read_text (s : String) : Label.read (Cell.text s) = Label.read s := rfl

theorem text_injective : Function.Injective Cell.text := fun _ _ => Cell.text.inj

end Cell

abbrev textRow : FolderRow String → FolderRow Cell := .relabel .text

namespace Entry

def hasPath (e : Entry) : Bool := e.path ≠ .null

def inBucket (b : String) (e : Entry) : Bool := e.bucketId = .text b

/-- What the schema promises of an entry: its kind, text where text is due, and whole numbers
elsewhere. -/
structure IsTyped (e : Entry) : Prop where
  kind : Table.isKind .image e ∨ Table.isKind .video e
  path : e.path.holdsText
  bucketId : e.bucketId.holdsText
  bucketTitle : e.bucketTitle.holdsText
  mimeType : e.mimeType.isLegible
  takenAt : e.takenAt.holdsInt
  orientation : e.orientation.holdsInt
  width : e.width.holdsInt
  height : e.height.holdsInt
  size : e.size.holdsInt

instance (e : Entry) : Decidable e.IsTyped :=
  decidable_of_iff ((Table.isKind .image e ∨ Table.isKind .video e) ∧ e.path.holdsText ∧
      e.bucketId.holdsText ∧ e.bucketTitle.holdsText ∧ e.mimeType.isLegible ∧
      e.takenAt.holdsInt ∧ e.orientation.holdsInt ∧ e.width.holdsInt ∧ e.height.holdsInt ∧
      e.size.holdsInt)
    ⟨fun ⟨a, b, c, d, e, f, g, h, i, j⟩ => ⟨a, b, c, d, e, f, g, h, i, j⟩,
      fun ⟨a, b, c, d, e, f, g, h, i, j⟩ => ⟨a, b, c, d, e, f, g, h, i, j⟩⟩

/-- Folders can be shown by the entry: its path is a text, its labels can be decoded, and its time
is a whole number. -/
structure IsShowable (e : Entry) : Prop where
  path : e.path.holdsText
  bucketId : e.bucketId.isDecodable
  bucketTitle : e.bucketTitle.isDecodable
  takenAt : e.takenAt.holdsInt

theorem IsTyped.isShowable {e : Entry} (h : e.IsTyped) : e.IsShowable :=
  ⟨h.path, Cell.isDecodable_of_holdsText h.bucketId, Cell.isDecodable_of_holdsText h.bucketTitle,
    h.takenAt⟩

def asFolderRow (e : Entry) : FolderRow Cell :=
  ⟨(e.path.text?).getD "", e.bucketId.label, e.bucketTitle.label, e.takenAt.whole⟩

def asTextRow (e : Entry) : FolderRow String :=
  ⟨(e.path.text?).getD "", e.bucketId.text?, e.bucketTitle.text?, e.takenAt.whole⟩

theorem IsTyped.asFolderRow_eq {e : Entry} (h : e.IsTyped) :
    e.asFolderRow = textRow e.asTextRow := by
  rw [asFolderRow, Cell.label_of_holdsText h.bucketId, Cell.label_of_holdsText h.bucketTitle]
  rfl

structure IsNumeric (e : Entry) : Prop where
  takenAt : e.takenAt.holdsInt
  orientation : e.orientation.holdsInt
  width : e.width.holdsInt
  height : e.height.holdsInt
  size : e.size.holdsInt

structure IsListable (e : Entry) : Prop extends IsNumeric e where
  path : e.path.holdsText
  mimeType : e.mimeType.isLegible

theorem IsTyped.isListable {e : Entry} (h : e.IsTyped) : e.IsListable :=
  ⟨⟨h.takenAt, h.orientation, h.width, h.height, h.size⟩, h.path, h.mimeType⟩

def asFolderRecord (e : Entry) : FolderRecord :=
  ⟨e.path, e.bucketId, e.bucketTitle, e.takenAt.whole⟩

def asItemRecord (kind : Kind) (e : Entry) : ItemRecord :=
  ⟨e.path, e.mimeType.orEmpty, e.takenAt.whole, e.width.whole, e.height.whole, e.size.whole,
    if kind = .image then e.orientation.whole else 0⟩

def asItemRow (kind : Kind) (e : Entry) : ItemRow :=
  ⟨(e.path.text?).getD "", e.mimeType.spelling, e.takenAt.whole, e.width.whole,
    e.height.whole, e.size.whole, if kind = .image then e.orientation.whole else 0⟩

def isDecodable (columns : List Column) (e : Entry) : Bool :=
  columns.all fun c => (c.2 e).isDecodable

variable {e : Entry}

theorem IsShowable.isDecodable (h : e.IsShowable) : e.isDecodable folderColumns := by
  simp [Entry.isDecodable, folderColumns, Cell.isDecodable_of_holdsText h.path, h.bucketId,
    h.bucketTitle, Cell.isDecodable_of_holdsInt h.takenAt]

theorem IsListable.isDecodable (h : e.IsListable) (kind : Kind) :
    e.isDecodable (itemColumns kind) := by
  cases kind <;>
    simp [Entry.isDecodable, itemColumns, Cell.isDecodable_of_holdsText h.path,
      Cell.isDecodable_of_isLegible h.mimeType, Cell.isDecodable_of_holdsInt h.takenAt,
      Cell.isDecodable_of_holdsInt h.orientation, Cell.isDecodable_of_holdsInt h.width,
      Cell.isDecodable_of_holdsInt h.height, Cell.isDecodable_of_holdsInt h.size]

end Entry

theorem countP_add {α : Type} {p q q' : α → Bool} {l : List α}
    (h : ∀ a ∈ l, (p a).toNat = (q a).toNat + (q' a).toNat) :
    l.countP p = l.countP q + l.countP q' := by
  induction l with
  | nil => rfl
  | cons a l ih =>
      have ha := h a List.mem_cons_self
      rw [List.countP_cons, List.countP_cons, List.countP_cons,
        ih fun b hb => h b (List.mem_cons_of_mem a hb)]
      cases hp : p a <;> cases hq : q a <;> cases hq' : q' a <;> simp_all <;> omega

namespace Table

def IsTyped (t : Table) : Prop := ∀ e ∈ t.entries, e.IsTyped

instance (t : Table) : Decidable t.IsTyped :=
  inferInstanceAs (Decidable (∀ e ∈ t.entries, e.IsTyped))

theorem mem_folderEntries {t : Table} {kind : Kind} {e : Entry} (h : e ∈ t.folderEntries kind) :
    e ∈ t.entries ∧ e.path ≠ .null := by
  rw [folderEntries, List.mem_mergeSort, List.mem_filter] at h
  simp only [Bool.and_eq_true, decide_eq_true_eq] at h
  exact ⟨h.1, h.2.1.2⟩

theorem mem_itemEntries {t : Table} {kind : Kind} {b : Option String} {e : Entry}
    (h : e ∈ t.itemEntries kind b) : e ∈ t.entries ∧ e.path ≠ .null := by
  rw [itemEntries, List.mem_mergeSort, List.mem_filter] at h
  simp only [Bool.and_eq_true, decide_eq_true_eq] at h
  exact ⟨h.1, h.2.1.2⟩

theorem isKind_video {e : Entry} (h : isKind .image e ∨ isKind .video e) :
    isKind .video e = !isKind .image e := by
  rcases h with h | h
  · have hkind : e.kind = .text "image" := of_decide_eq_true h
    rw [isKind, isKind, hkind]
    rfl
  · have hkind : e.kind = .text "video" := of_decide_eq_true h
    rw [isKind, isKind, hkind]
    rfl

theorem countP_kinds {t : Table} (ht : t.IsTyped) (p : Entry → Bool) :
    t.entries.countP p = t.entries.countP (fun e => isKind .image e && p e) +
      t.entries.countP (fun e => isKind .video e && p e) := by
  refine countP_add fun e he => ?_
  rw [isKind_video (ht e he).kind]
  cases isKind .image e <;> simp

theorem countP_folderRows (t : Table) (kind : Kind) (p : FolderRow String → Bool) :
    ((t.folderEntries kind).map Entry.asTextRow).countP p =
      t.entries.countP fun e =>
        isKind kind e && (e.hasPath && e.bucketId ≠ .null && p e.asTextRow) := by
  rw [List.countP_map, folderEntries, (List.mergeSort_perm _ _).countP_eq, List.countP_filter]
  refine List.countP_congr fun e _ => ?_
  simp [Entry.hasPath, and_assoc, and_comm, and_left_comm]

/-- The rows that folders are made of, in whatever order. -/
structure Answers (t : Table) (images videos : List (FolderRow String)) : Prop where
  images : images.Perm ((t.folderEntries .image).map Entry.asTextRow)
  videos : videos.Perm ((t.folderEntries .video).map Entry.asTextRow)

theorem Answers.countP_eq {t : Table} {images videos : List (FolderRow String)}
    (h : t.Answers images videos) (ht : t.IsTyped) (p : FolderRow String → Bool) :
    (images ++ videos).countP p =
      t.entries.countP fun e => e.hasPath && e.bucketId ≠ .null && p e.asTextRow := by
  rw [List.countP_append, h.images.countP_eq, h.videos.countP_eq, countP_folderRows,
    countP_folderRows]
  exact (countP_kinds ht _).symm

theorem length_itemEntries (t : Table) (kind : Kind) (b : Option String) :
    (t.itemEntries kind b).length =
      t.entries.countP fun e => isKind kind e && (e.hasPath && b.all (Entry.inBucket · e)) := by
  rw [itemEntries, List.length_mergeSort, ← List.countP_eq_length_filter]
  refine List.countP_congr fun e _ => ?_
  cases b <;> simp [Entry.hasPath, Entry.inBucket, and_assoc]

end Table

namespace Database

/-- The file is there and holds the table. -/
def Contains (d : Database) (w : World) (t : Table) : Prop :=
  d.path.hasNull = false ∧ ∃ place changedAt,
    w.files.reach w.cwd d.path true = .ok (.found place) ∧
      w.files.node? place = some (.file (.database (some t)) changedAt)

theorem table_exec {d : Database} {t : Table} {r : Run World} (h : d.Contains r.state t) :
    d.table.exec r = (.ok t, r) := by
  obtain ⟨hpath, place, changedAt, hreach, hnode⟩ := h
  have hconnect : d.connect.exec r = (.ok (.database (some t)), r) := by
    rw [connect, hpath, if_neg Bool.false_ne_true]
    rw [Act.exec_bind_ok (Act.exec_getState r)]
    simp only [hreach, hnode, Act.exec_pure]
  have htable : d.table?.exec r = (.ok (some t), r) := by
    rw [table?, Act.exec_bind_ok hconnect]
    rfl
  rw [table, Act.exec_bind_ok htable]
  rfl

/-- Access is given, and the file then holds the table. -/
def Serves (d : Database) (t : Table) (access : World.Doing Bool) (r : Run World) : Prop :=
  ∃ r', access.exec r = (.ok true, r') ∧ d.Contains r'.state t

end Database

end Index

end MediaCatalog
