import MediaCatalog.Index.Table
import MediaCatalog.World

namespace MediaCatalog.Index

open World

structure Database where
  path : Path
  deriving DecidableEq, Repr

def cannotOpen : Failure := ⟨.operational, "unable to open database file", []⟩

def notADatabase : Failure := ⟨.database, "file is not a database", []⟩

def tableName : String := "media_index"

def noTable : Failure := ⟨.operational, "no such table: media_index", []⟩

def noColumn (name : String) : Failure :=
  ⟨.operational, "table media_index has no column named " ++ name, []⟩

namespace Database

/-- The content of the file, which is there afterwards. -/
def connect (d : Database) : Doing Content := do
  if d.path.hasNull then Act.fail nullCharacter
  let w ← Act.getState
  match w.files.reach w.cwd d.path true with
  | .error _ => Act.fail cannotOpen
  | .ok (.missing ..) =>
    store d.path []
    return .bytes []
  | .ok (.found place) =>
    match w.files.node? place with
    | some (.file content _) => return content
    | _ => Act.fail cannotOpen

def table? (d : Database) : Doing (Option Table) := do
  match ← d.connect with
  | .bytes [] => return none
  | .bytes _ => Act.fail notADatabase
  | .database t => return t

def table (d : Database) : Doing Table := do
  match ← d.table? with
  | some t => return t
  | none => Act.fail noTable

def save (d : Database) (t : Option Table) : Doing Unit := do
  let now := (← Act.getState).clock
  change fun fs cwd => fs.store cwd d.path (.database t) now

def prepare (d : Database) : Doing Unit := do
  d.save (some ((← d.table?).getD {}))

def drop (d : Database) : Doing Unit := do
  let _ ← d.table
  d.save none

def cellsOf (row : List (String × Json)) : Except Failure Table.NewRow :=
  row.mapM fun p => do return (p.1, ← Cell.ofJson p.2)

def insert (d : Database) (row : List (String × Json)) : Doing Unit := do
  let t ← d.table
  match row.find? (fun p => !columns.contains p.1) with
  | some p => Act.fail (noColumn p.1)
  | none =>
    let t ← Act.ofExcept (do t.insert (← cellsOf row))
    d.save (some t)

def delete (d : Database) (path : String) : Doing Unit := do
  d.save (some ((← d.table).delete path))

def isDatabaseFault (f : Failure) : Bool :=
  match f.cause with
  | .operational | .database | .integrity => true
  | _ => false

/-- Selects entries of the table; what the database reports names its file. -/
def fetch (d : Database) (columns : List Column) (select : Table → List Entry) :
    Doing (List Entry) :=
  let selected := do Act.ofExcept (decoded columns (select (← d.table)))
  Act.recover selected isDatabaseFault fun f =>
    Act.fail ⟨.indexQuery, d.path.toString ++ ": " ++ f.message, []⟩

def queryFolders (d : Database) (kind : Kind) : Doing (List FolderRecord) := do
  let entries ← d.fetch folderColumns (·.folderEntries kind)
  Act.ofExcept (entries.mapM Entry.folderRecord)

def queryItems (d : Database) (kind : Kind) (bucketId : Option String) :
    Doing (List ItemRecord) := do
  let entries ← d.fetch (itemColumns kind) (·.itemEntries kind bucketId)
  Act.ofExcept (entries.mapM (Entry.itemRecord kind))

/-- The answers as listings take them: with a text for a path and for a mime type. -/
def index (d : Database) : MediaIndex World Cell where
  folders kind := do Act.ofExcept ((← d.queryFolders kind).mapM FolderRecord.row)
  items kind bucketId := do Act.ofExcept ((← d.queryItems kind bucketId).mapM ItemRecord.row)

end Database

end MediaCatalog.Index
