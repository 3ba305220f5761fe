import MediaCatalog.Failure
import MediaCatalog.Item
import MediaCatalog.Json
import MediaCatalog.Report.Size

namespace MediaCatalog.Report

abbrev Row := List String

/-- What was printed, and the failure that ended the printing. -/
structure Printed where
  lines : List String
  failure : Option Failure := none
  deriving DecidableEq, Repr

def padRight (width : Nat) (s : String) : String :=
  s ++ String.ofList (List.replicate (width - s.length) ' ')

def columnWidth (rows : List Row) (i : Nat) (header : String) : Nat :=
  rows.foldl (fun w r => max w (r.getD i "").length) header.length

def columnWidths (headers : Row) (rows : List Row) : List Nat :=
  headers.zipIdx.map (fun h => columnWidth rows h.2 h.1)

def line (separator : String) (cells : List String) : String :=
  "  " ++ separator.intercalate cells

def rowLine (widths : List Nat) (cells : Row) : String :=
  line " | " (List.zipWith padRight widths cells)

def ruleLine (widths : List Nat) : String :=
  line "-+-" (widths.map (fun w => String.ofList (List.replicate w '-')))

def outOfRange : Failure := ⟨.index, "list index out of range", []⟩

def table (headers : Row) (rows : List Row) : Printed :=
  if rows = [] then ⟨["(no rows)"], none⟩
  else if rows.any (fun r => r.length < headers.length) then ⟨[], some outOfRange⟩
  else
    let widths := columnWidths headers rows
    let fitting := rows.takeWhile (fun r => r.length ≤ headers.length)
    ⟨rowLine widths headers :: ruleLine widths :: fitting.map (rowLine widths),
      if fitting.length < rows.length then some outOfRange else none⟩

def cell : Json → String
  | .null => ""
  | v => v.text

def dimensions (i : Item) : String :=
  if i.width = 0 || i.height = 0 then "?" else intText i.width ++ "x" ++ intText i.height

def itemHeaders : Row := ["taken_at", "mime", "dims", "size", "location"]

def itemRow (i : Item) : Except Failure Row := do
  let size ← humanBytes (some i.size)
  return [intText i.takenAt, i.mimeType, dimensions i, size, i.location]

def folderHeaders : Row := ["kind", "title", "count", "bucket_id", "thumbnail"]

def folderRow (f : Folder) : Row :=
  [f.kind.word, f.title.getD "", intText f.itemCount, f.bucketId, f.thumbnail.getD ""]

end MediaCatalog.Report
