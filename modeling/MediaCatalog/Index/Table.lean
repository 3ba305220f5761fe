import MediaCatalog.Collaborators
import MediaCatalog.Index.Cell

namespace MediaCatalog.Index

structure Entry where
  id : Int
  path : Cell
  kind : Cell
  bucketId : Cell
  bucketTitle : Cell
  mimeType : Cell
  takenAt : Cell
  orientation : Cell
  width : Cell
  height : Cell
  size : Cell
  deriving DecidableEq, Repr

/-- Entries by ascending id. `lastId` is the greatest id ever given. -/
structure Table where
  entries : List Entry := []
  lastId : Int := 0
  deriving DecidableEq, Repr

def integrity (message : String) : Failure := ⟨.integrity, message, []⟩

def columns : List String :=
  ["id", "path", "kind", "bucket_id", "bucket_title", "mime_type", "taken_at", "orientation",
   "width", "height", "size"]

namespace Table

abbrev NewRow := List (String × Cell)

def column (row : NewRow) (name : String) (default : Cell) : Cell :=
  (field? name row).getD default

def ofColumns (id : Int) (row : NewRow) : Entry :=
  let text (name : String) := (column row name .null).asText
  let counted (name : String) := (column row name (.int 0)).asInteger
  { id
    path := text "path"
    kind := text "kind"
    bucketId := text "bucket_id"
    bucketTitle := text "bucket_title"
    mimeType := text "mime_type"
    takenAt := counted "taken_at"
    orientation := (column row "orientation" .null).asInteger
    width := counted "width"
    height := counted "height"
    size := counted "size" }

def required (e : Entry) : List (String × Cell) :=
  [("kind", e.kind), ("taken_at", e.takenAt), ("width", e.width), ("height", e.height),
   ("size", e.size)]

def check (e : Entry) : Except Failure Unit :=
  match (required e).find? (fun p => p.2 = .null) with
  | some p => .error (integrity ("NOT NULL constraint failed: media_index." ++ p.1))
  | none =>
    if e.kind = .text "image" || e.kind = .text "video" then .ok ()
    else .error (integrity "CHECK constraint failed: kind IN ('image', 'video')")

def place (e : Entry) : List Entry → List Entry
  | [] => [e]
  | f :: rest => if e.id < f.id then e :: f :: rest else f :: place e rest

def newId (t : Table) (row : NewRow) : Except Failure Int :=
  match (column row "id" .null).asInteger with
  | .null => .ok (t.lastId + 1)
  | .int n =>
    if t.entries.any (fun e => e.id = n) then
      .error (integrity "UNIQUE constraint failed: media_index.id")
    else .ok n
  | _ => .error (integrity "datatype mismatch")

def insert (t : Table) (row : NewRow) : Except Failure Table := do
  let id ← t.newId row
  let e := ofColumns id row
  check e
  return ⟨place e t.entries, max t.lastId id⟩

def delete (t : Table) (path : String) : Table :=
  { t with entries := t.entries.filter (fun e => e.path ≠ .text path) }

def isKind (kind : Kind) (e : Entry) : Bool := e.kind = .text kind.word

/-- A title as it is compared: without regard to the case of ASCII letters, and only up to a null
character. -/
def foldedTitle (title : List UInt8) : List Nat :=
  let lower (b : UInt8) : Nat := if 0x41 ≤ b && b ≤ 0x5A then b.toNat + 0x20 else b.toNat
  (title.takeWhile (· != 0)).map lower

/-- Of texts that compare equal, the longer one comes later. -/
def titleLt (a b : Cell) : Bool :=
  if a.isText && b.isText then
    foldedTitle a.bytes < foldedTitle b.bytes ||
      (foldedTitle a.bytes == foldedTitle b.bytes && a.bytes.length < b.bytes.length)
  else a.lt b

def folderOrder (a b : Entry) : Bool :=
  titleLt a.bucketTitle b.bucketTitle ||
    (!titleLt b.bucketTitle a.bucketTitle && !a.takenAt.lt b.takenAt)

def newestFirst (a b : Entry) : Bool := !a.takenAt.lt b.takenAt

def folderEntries (t : Table) (kind : Kind) : List Entry :=
  (t.entries.filter (fun e => isKind kind e && e.path ≠ .null && e.bucketId ≠ .null)).mergeSort
    folderOrder

def itemEntries (t : Table) (kind : Kind) (bucketId : Option String) : List Entry :=
  let inBucket (e : Entry) : Bool :=
    match bucketId with
    | some b => e.bucketId = .text b
    | none => true
  (t.entries.filter (fun e => isKind kind e && e.path ≠ .null && inBucket e)).mergeSort
    newestFirst

end Table

structure FolderRecord where
  path : Cell
  bucketId : Cell
  title : Cell
  takenAt : Int
  deriving DecidableEq, Repr

structure ItemRecord where
  path : Cell
  mimeType : Cell
  takenAt : Int
  width : Int
  height : Int
  size : Int
  orientation : Int := 0
  deriving DecidableEq, Repr

abbrev Column := String × (Entry → Cell)

def folderColumns : List Column :=
  [("path", Entry.path), ("bucket_id", Entry.bucketId), ("bucket_title", Entry.bucketTitle),
   ("taken_at", Entry.takenAt)]

def itemColumns (kind : Kind) : List Column :=
  [("path", Entry.path), ("mime_type", Entry.mimeType), ("taken_at", Entry.takenAt)] ++
    (if kind = .image then [("orientation", Entry.orientation)] else []) ++
    [("width", Entry.width), ("height", Entry.height), ("size", Entry.size)]

/-- The entries, if every selected text can be decoded. -/
def decoded (columns : List Column) (entries : List Entry) : Except Failure (List Entry) :=
  match entries.findSome? fun e => columns.findSome? fun c => (c.2 e).undecodable? c.1 with
  | some f => .error f
  | none => .ok entries

def Entry.folderRecord (e : Entry) : Except Failure FolderRecord := do
  let takenAt ← e.takenAt.toInt
  return ⟨e.path, e.bucketId, e.bucketTitle, takenAt⟩

def Entry.itemRecord (kind : Kind) (e : Entry) : Except Failure ItemRecord := do
  let takenAt ← e.takenAt.toInt
  let width ← e.width.toInt
  let height ← e.height.toInt
  let size ← e.size.toInt
  let orientation ← match kind with
    | .image => e.orientation.toInt
    | .video => .ok 0
  return ⟨e.path, e.mimeType.orEmpty, takenAt, width, height, size, orientation⟩

def FolderRecord.row (r : FolderRecord) : Except Failure (FolderRow Cell) := do
  return ⟨← r.path.asPath, r.bucketId.label, r.title.label, r.takenAt⟩

def ItemRecord.row (r : ItemRecord) : Except Failure ItemRow := do
  let path ← r.path.asPath
  match Label.read r.mimeType with
  | .ok mimeType =>
    return ⟨path, mimeType, r.takenAt, r.width, r.height, r.size, r.orientation⟩
  | .error flaw => .error (.ofFields [⟨flaw, [.field "mime_type"]⟩])

end MediaCatalog.Index
