import MediaCatalog.Proofs.Effect
import MediaCatalog.Proofs.FileSystem.Change
import MediaCatalog.Proofs.Index.Selection

namespace MediaCatalog

/-- A text of the selection that could not be decoded leaves nothing to read. -/
def Fate.ofDecoding (decoded : Bool) : Fate := if decoded then .answered else .unread

namespace Index

def IsNumberFault (f : Failure) : Prop := f.cause = .value ∨ f.cause = .overflow

/-- A row is refused for a number, for a path that is no text, or for a label that is not UTF-8. -/
def IsRowFault (f : Failure) : Prop := IsNumberFault f ∨ f.cause = .type ∨ f.cause = .refused

theorem IsRowFault.ne_indexQuery {f : Failure} (h : IsRowFault f) : f.cause ≠ .indexQuery := by
  intro hcause
  rcases h with (h | h) | h | h <;> exact absurd (h.symm.trans hcause) (by decide)

theorem IsNumberFault.ne_indexQuery {f : Failure} (h : IsNumberFault f) : f.cause ≠ .indexQuery :=
  IsRowFault.ne_indexQuery (.inl h)

namespace Cell

/-- Whole numbers, numbers with a whole part, and texts and blobs that spell a whole number or are
empty. -/
def isReadable : Cell → Bool
  | .null | .int _ => true
  | .real x => x.isFinite
  | c => c.bytes = [] || c.spelled?.isSome

def reading : Cell → Int
  | .null => 0
  | .int n => n
  | .real x => (x.trunc?).getD 0
  | c => if c.bytes = [] then 0 else c.spelled?.getD 0

theorem badInt_cause (c : Cell) : c.badInt.cause = .value := by
  cases c <;> rfl

theorem ends_spelled (c : Cell) :
    Ends IsNumberFault (.ofBool (c.bytes = [] || c.spelled?.isSome))
      (if c.bytes = [] then 0 else c.spelled?.getD 0)
      (if c.bytes = [] then .ok 0
        else match c.spelled? with
          | some n => .ok n
          | none => .error c.badInt) := by
  by_cases h : c.bytes = []
  · rw [decide_eq_true h, if_pos h, if_pos h]
    exact .answered 0
  · rw [decide_eq_false h, if_neg h, if_neg h]
    cases c.spelled? with
    | none => exact .refused _ (.inl c.badInt_cause)
    | some n => exact .answered n

theorem ends_toInt (c : Cell) : Ends IsNumberFault (.ofBool c.isReadable) c.reading c.toInt := by
  cases c with
  | null => exact .answered 0
  | int n => exact .answered n
  | real x =>
      cases x with
      | nan => exact .refused _ (.inl rfl)
      | inf neg => exact .refused _ (.inr rfl)
      | finite neg m q => exact .answered _
  | text s => exact ends_spelled (.text s)
  | garbled t => exact ends_spelled (.garbled t)
  | blob bytes => exact ends_spelled (.blob bytes)

variable {c : Cell}

theorem isReadable_of_holdsInt (h : c.holdsInt) : c.isReadable := by
  cases c with
  | null | int n => rfl
  | real x | text s | garbled t | blob bytes => cases h

theorem reading_of_holdsInt (h : c.holdsInt) : c.reading = c.whole := by
  cases c with
  | null | int n => rfl
  | real x | text s | garbled t | blob bytes => cases h

theorem undecodable?_eq_none {column : String} : c.undecodable? column = none ↔ c.isDecodable := by
  cases c <;> simp [undecodable?, isDecodable]

theorem cause_of_undecodable? {column : String} {f : Failure}
    (h : c.undecodable? column = some f) : f.cause = .operational := by
  cases c with
  | garbled t =>
      obtain rfl := Option.some.inj h
      rfl
  | null | int n | real x | text s | blob bytes => cases h

theorem ends_asPath (c : Cell) :
    Ends IsRowFault (.ofBool c.text?.isSome) (c.text?.getD "") c.asPath := by
  cases c with
  | text s => exact .answered s
  | null | int n | real x | garbled t | blob bytes => exact .refused _ (.inr (.inl rfl))

end Cell

namespace Entry

def isReadable (kind : Kind) (e : Entry) : Bool :=
  e.takenAt.isReadable && (e.width.isReadable && (e.height.isReadable && (e.size.isReadable &&
    (kind != .image || e.orientation.isReadable))))

def readFolder (e : Entry) : FolderRecord :=
  ⟨e.path, e.bucketId, e.bucketTitle, e.takenAt.reading⟩

def readItem (kind : Kind) (e : Entry) : ItemRecord :=
  ⟨e.path, e.mimeType.orEmpty, e.takenAt.reading, e.width.reading, e.height.reading,
    e.size.reading, if kind = .image then e.orientation.reading else 0⟩

theorem ends_folderRecord (e : Entry) :
    Ends IsNumberFault (.ofBool e.takenAt.isReadable) e.readFolder e.folderRecord :=
  e.takenAt.ends_toInt.map (FolderRecord.mk _ _ _)

theorem ends_itemRecord (kind : Kind) (e : Entry) :
    Ends IsNumberFault (.ofBool (e.isReadable kind)) (e.readItem kind) (e.itemRecord kind) := by
  refine e.takenAt.ends_toInt.and (e.width.ends_toInt.and (e.height.ends_toInt.and
    (e.size.ends_toInt.and ?_)))
  cases kind with
  | image => exact e.orientation.ends_toInt.map (ItemRecord.mk _ _ _ _ _ _)
  | video => exact .answered _

theorem IsNumeric.read {e : Entry} (h : e.IsNumeric) (kind : Kind) :
    e.isReadable kind ∧ e.readItem kind = e.asItemRecord kind ∧
      e.readFolder = e.asFolderRecord := by
  refine ⟨?_, ?_, ?_⟩
  · simp [isReadable, Cell.isReadable_of_holdsInt h.takenAt, Cell.isReadable_of_holdsInt h.width,
      Cell.isReadable_of_holdsInt h.height, Cell.isReadable_of_holdsInt h.size,
      Cell.isReadable_of_holdsInt h.orientation]
  · rw [readItem, asItemRecord, Cell.reading_of_holdsInt h.takenAt,
      Cell.reading_of_holdsInt h.width, Cell.reading_of_holdsInt h.height,
      Cell.reading_of_holdsInt h.size, Cell.reading_of_holdsInt h.orientation]
  · rw [readFolder, asFolderRecord, Cell.reading_of_holdsInt h.takenAt]

end Entry

def FolderRecord.shown (r : FolderRecord) : FolderRow Cell :=
  ⟨r.path.text?.getD "", r.bucketId.label, r.title.label, r.takenAt⟩

theorem FolderRecord.ends_row (r : FolderRecord) :
    Ends IsRowFault (.ofBool r.path.text?.isSome) r.shown r.row :=
  r.path.ends_asPath.map fun path => FolderRow.mk path _ _ _

namespace ItemRecord

def isShown (r : ItemRecord) : Bool := r.path.text?.isSome && Label.isLegible r.mimeType

def shown (r : ItemRecord) : ItemRow :=
  ⟨r.path.text?.getD "", (Label.text? r.mimeType).getD "", r.takenAt, r.width, r.height, r.size,
    r.orientation⟩

theorem ends_row (r : ItemRecord) : Ends IsRowFault (.ofBool r.isShown) r.shown r.row := by
  refine r.path.ends_asPath.and ?_
  rw [Label.isLegible, shown, Label.text?]
  cases Label.read r.mimeType with
  | ok mimeType => exact .answered _
  | error flaw => exact .refused _ (.inr (.inr rfl))

end ItemRecord

theorem decoded_eq_ok {columns : List Column} {entries : List Entry}
    (h : ∀ e ∈ entries, e.isDecodable columns) : decoded columns entries = .ok entries := by
  have hnone : (entries.findSome? fun e =>
      columns.findSome? fun c => (c.2 e).undecodable? c.1) = none := by
    refine List.findSome?_eq_none_iff.2 fun e he => List.findSome?_eq_none_iff.2 fun c hc => ?_
    have hcell := List.all_eq_true.1 (h e he) c hc
    cases hc : c.2 e with
    | garbled t =>
        rw [hc] at hcell
        cases hcell
    | null | int n | real x | text s | blob bytes => rfl
  rw [decoded, hnone]

theorem decoded_eq_error {columns : List Column} {entries : List Entry}
    (h : entries.all (Entry.isDecodable columns) = false) :
    ∃ f, decoded columns entries = .error f ∧ f.cause = .operational := by
  rw [decoded]
  cases hfound : entries.findSome? fun e =>
      columns.findSome? fun c => (c.2 e).undecodable? c.1 with
  | some f =>
      obtain ⟨e, -, he⟩ := List.exists_of_findSome?_eq_some hfound
      obtain ⟨c, -, hc⟩ := List.exists_of_findSome?_eq_some he
      exact ⟨f, rfl, Cell.cause_of_undecodable? hc⟩
  | none =>
      rw [List.all_eq_true.2] at h
      · cases h
      · intro e he
        refine List.all_eq_true.2 fun c hc => ?_
        exact Cell.undecodable?_eq_none.1
          (List.findSome?_eq_none_iff.1 (List.findSome?_eq_none_iff.1 hfound e he) c hc)

namespace Table

variable (t : Table) (kind : Kind) (b : Option String)

def decodesFolders : Bool := (t.folderEntries kind).all (Entry.isDecodable folderColumns)

def decodesItems : Bool := (t.itemEntries kind b).all (Entry.isDecodable (itemColumns kind))

def folderRecords : List FolderRecord := (t.folderEntries kind).map Entry.readFolder

def itemRecords : List ItemRecord := (t.itemEntries kind b).map (Entry.readItem kind)

def folderFate : Fate :=
  (Fate.ofDecoding (t.decodesFolders kind)).next
    (.ofBool ((t.folderEntries kind).all (·.takenAt.isReadable)))

def itemFate : Fate :=
  (Fate.ofDecoding (t.decodesItems kind b)).next
    (.ofBool ((t.itemEntries kind b).all (Entry.isReadable kind)))

def folderRows : List (FolderRow Cell) := (t.folderRecords kind).map FolderRecord.shown

def itemRows : List ItemRow := (t.itemRecords kind b).map ItemRecord.shown

/-- What becomes of a question about folders when its answer has to be shown. -/
def folderRowFate : Fate :=
  (t.folderFate kind).next (.ofBool ((t.folderRecords kind).all (·.path.text?.isSome)))

def itemRowFate : Fate :=
  (t.itemFate kind b).next (.ofBool ((t.itemRecords kind b).all ItemRecord.isShown))

section Sound

variable {t : Table}

theorem folderRows_eq (ht : ∀ e ∈ t.entries, e.IsShowable) (kind : Kind) :
    t.folderRows kind = (t.folderEntries kind).map Entry.asFolderRow := by
  rw [folderRows, folderRecords, List.map_map]
  refine List.map_congr_left fun e he => ?_
  have htime := (ht e (mem_folderEntries he).1).takenAt
  rw [Function.comp_apply, Entry.readFolder, Cell.reading_of_holdsInt htime]
  rfl

theorem folderRowFate_eq_answered (ht : ∀ e ∈ t.entries, e.IsShowable) (kind : Kind) :
    t.folderRowFate kind = .answered := by
  have hselected (e : Entry) (he : e ∈ t.folderEntries kind) : e.IsShowable ∧ e.path ≠ .null :=
    (mem_folderEntries he).imp_left (ht e)
  have hdecodes : t.decodesFolders kind = true :=
    List.all_eq_true.2 fun e he => (hselected e he).1.isDecodable
  have hreadable : (t.folderEntries kind).all (·.takenAt.isReadable) = true :=
    List.all_eq_true.2 fun e he => Cell.isReadable_of_holdsInt (hselected e he).1.takenAt
  have hpaths : (t.folderRecords kind).all (·.path.text?.isSome) = true := by
    refine List.all_eq_true.2 fun record hrecord => ?_
    obtain ⟨e, he, rfl⟩ := List.mem_map.1 hrecord
    exact Cell.isSome_of_holdsText (hselected e he).1.path (hselected e he).2
  rw [folderRowFate, folderFate, hdecodes, hreadable, hpaths]
  rfl

theorem itemRows_eq (ht : ∀ e ∈ t.entries, e.IsListable) (kind : Kind) (b : Option String) :
    t.itemRows kind b = (t.itemEntries kind b).map (Entry.asItemRow kind) := by
  rw [itemRows, itemRecords, List.map_map]
  refine List.map_congr_left fun e he => ?_
  have hnumeric := (ht e (mem_itemEntries he).1).toIsNumeric
  rw [Function.comp_apply, (hnumeric.read kind).2.1]
  rfl

theorem itemRowFate_eq_answered (ht : ∀ e ∈ t.entries, e.IsListable) (kind : Kind)
    (b : Option String) : t.itemRowFate kind b = .answered := by
  have hselected (e : Entry) (he : e ∈ t.itemEntries kind b) : e.IsListable ∧ e.path ≠ .null :=
    (mem_itemEntries he).imp_left (ht e)
  have hdecodes : t.decodesItems kind b = true :=
    List.all_eq_true.2 fun e he => (hselected e he).1.isDecodable kind
  have hreadable : (t.itemEntries kind b).all (Entry.isReadable kind) = true :=
    List.all_eq_true.2 fun e he => ((hselected e he).1.toIsNumeric.read kind).1
  have hshown : (t.itemRecords kind b).all ItemRecord.isShown = true := by
    refine List.all_eq_true.2 fun record hrecord => ?_
    obtain ⟨e, he, rfl⟩ := List.mem_map.1 hrecord
    obtain ⟨hlistable, hpath⟩ := hselected e he
    exact Bool.and_eq_true_iff.2
      ⟨Cell.isSome_of_holdsText hlistable.path hpath, hlistable.mimeType⟩
  rw [itemRowFate, itemFate, hdecodes, hreadable, hshown]
  rfl

end Sound

end Table

namespace Database

open Act

variable {d : Database} {t : Table} {r : Run World}

theorem exec_fetch (h : d.Contains r.state t) (columns : List Column)
    (select : Table → List Entry) :
    ∃ out, (d.fetch columns select).exec r = (out, r) ∧
      Ends IsNumberFault (.ofDecoding ((select t).all (Entry.isDecodable columns))) (select t)
        out := by
  have hselected : (do Act.ofExcept (decoded columns (select (← d.table)))).exec r =
      (decoded columns (select t), r) := by
    rw [exec_bind_ok (table_exec h), exec_ofExcept]
  cases hdecodes : (select t).all (Entry.isDecodable columns) with
  | true =>
      rw [decoded_eq_ok (List.all_eq_true.1 hdecodes)] at hselected
      exact ⟨_, exec_recover_ok hselected _ _, .answered _⟩
  | false =>
      obtain ⟨f, hf, hcause⟩ := decoded_eq_error hdecodes
      rw [hf] at hselected
      have hfault : isDatabaseFault f := by rw [isDatabaseFault, hcause]
      refine ⟨.error ⟨.indexQuery, d.path.toString ++ ": " ++ f.message, []⟩, ?_, .unread _ rfl⟩
      rw [fetch, exec_recover_error hselected hfault, exec_fail]

/-- What an action that leaves the run alone comes to, when its result is read further. -/
theorem exec_bind_ofExcept {α β : Type} {act : World.Doing α} {refusal : Failure → Prop}
    {fate fate' : Fate} {a : α} {b : β} {next : α → Except Failure β}
    (hact : ∃ out, act.exec r = (out, r) ∧ Ends refusal fate a out)
    (hnext : Ends refusal fate' b (next a)) :
    ∃ out, (do Act.ofExcept (next (← act)) : World.Doing β).exec r = (out, r) ∧
      Ends refusal (fate.next fate') b out := by
  obtain ⟨out, hexec, hout⟩ := hact
  refine ⟨out >>= next, ?_, hout.bind hnext⟩
  rw [exec_bind, hexec]
  cases out with
  | error f => rfl
  | ok a => exact exec_ofExcept (next a) r

theorem exec_queryFolders (h : d.Contains r.state t) (kind : Kind) :
    ∃ out, (d.queryFolders kind).exec r = (out, r) ∧
      Ends IsNumberFault (t.folderFate kind) (t.folderRecords kind) out :=
  exec_bind_ofExcept (exec_fetch h folderColumns (·.folderEntries kind))
    (Ends.mapM Entry.ends_folderRecord _)

theorem exec_queryItems (h : d.Contains r.state t) (kind : Kind) (b : Option String) :
    ∃ out, (d.queryItems kind b).exec r = (out, r) ∧
      Ends IsNumberFault (t.itemFate kind b) (t.itemRecords kind b) out :=
  exec_bind_ofExcept (exec_fetch h (itemColumns kind) (·.itemEntries kind b))
    (Ends.mapM (Entry.ends_itemRecord kind) _)

theorem exec_indexFolders (h : d.Contains r.state t) (kind : Kind) :
    ∃ out, (d.index.folders kind).exec r = (out, r) ∧
      Ends IsRowFault (t.folderRowFate kind) (t.folderRows kind) out := by
  obtain ⟨out, hexec, hout⟩ := exec_queryFolders h kind
  exact exec_bind_ofExcept ⟨out, hexec, hout.mono fun f => .inl⟩
    (Ends.mapM FolderRecord.ends_row _)

theorem exec_indexItems (h : d.Contains r.state t) (kind : Kind) (b : Option String) :
    ∃ out, (d.index.items kind b).exec r = (out, r) ∧
      Ends IsRowFault (t.itemRowFate kind b) (t.itemRows kind b) out := by
  obtain ⟨out, hexec, hout⟩ := exec_queryItems h kind b
  exact exec_bind_ofExcept ⟨out, hexec, hout.mono fun f => .inl⟩
    (Ends.mapM ItemRecord.ends_row _)

theorem index_folders_exec (ht : ∀ e ∈ t.entries, e.IsShowable) (h : d.Contains r.state t)
    (kind : Kind) :
    (d.index.folders kind).exec r = (.ok ((t.folderEntries kind).map Entry.asFolderRow), r) := by
  obtain ⟨out, hexec, hout⟩ := exec_indexFolders h kind
  rw [Table.folderRowFate_eq_answered ht kind, Table.folderRows_eq ht kind] at hout
  rw [hexec, hout.eq_ok]

theorem index_items_exec (ht : ∀ e ∈ t.entries, e.IsListable) (h : d.Contains r.state t)
    (kind : Kind) (b : Option String) :
    (d.index.items kind b).exec r =
      (.ok ((t.itemEntries kind b).map (Entry.asItemRow kind)), r) := by
  obtain ⟨out, hexec, hout⟩ := exec_indexItems h kind b
  rw [Table.itemRowFate_eq_answered ht kind b, Table.itemRows_eq ht kind b] at hout
  rw [hexec, hout.eq_ok]

end Database

end Index

end MediaCatalog
