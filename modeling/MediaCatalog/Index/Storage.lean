import MediaCatalog.Index.Table
import MediaCatalog.Json.Reader
import MediaCatalog.Json.Writer

namespace MediaCatalog.Index

def Cell.toJson : Cell → Json
  | .null => .null
  | .int n => .int n
  | .real x => .float x
  | .text s => .str s
  | .garbled t => .obj [("text", .str (hexText t.bytes))]
  | .blob bytes => .obj [("bytes", .str (hexText bytes))]

def Cell.read? : Json → Option Cell
  | .null => some .null
  | .int n => some (.int n)
  | .float x => some (.real x)
  | .str s => some (.text s)
  | .obj [("text", .str digits)] => do
    let bytes ← hexBytes? digits.toList
    if h : Text.Utf8.decode? bytes = none then some (.garbled ⟨bytes, h⟩) else none
  | .obj [("bytes", .str digits)] => do
    return .blob (← hexBytes? digits.toList)
  | _ => none

def Entry.toJson (e : Entry) : Json :=
  .arr (.int e.id :: [e.path, e.kind, e.bucketId, e.bucketTitle, e.mimeType, e.takenAt,
    e.orientation, e.width, e.height, e.size].map Cell.toJson)

def Entry.read? (j : Json) : Option Entry := do
  match ← j.arr? with
  | id :: cells =>
    match ← cells.mapM Cell.read? with
    | [path, kind, bucketId, bucketTitle, mimeType, takenAt, orientation, width, height, size] =>
      some { id := ← id.int?, path, kind, bucketId, bucketTitle, mimeType, takenAt, orientation,
             width, height, size }
    | _ => none
  | [] => none

def Table.toJson (t : Table) : Json :=
  .obj [("last_id", .int t.lastId), ("entries", .arr (t.entries.map Entry.toJson))]

def Table.read? (j : Json) : Option Table := do
  let lastId ← (← j.get? "last_id").int?
  let entries ← (← (← j.get? "entries").arr?).mapM Entry.read?
  some { entries, lastId }

namespace Storage

def firstLine : List UInt8 := Text.Utf8.ofString "media catalog index\n"

/-- A database without the table holds nothing behind the first line. -/
def encode : Option Table → List UInt8
  | none => firstLine
  | some t => firstLine ++ Text.Utf8.ofString t.toJson.write

def decode? (bytes : List UInt8) : Option (Option Table) :=
  if firstLine.isPrefixOf bytes then
    match bytes.drop firstLine.length with
    | [] => some none
    | rest => do
      let j ← (Json.read (Text.Utf8.toString rest)).toOption
      return some (← Table.read? j)
  else none

end Storage

end MediaCatalog.Index
