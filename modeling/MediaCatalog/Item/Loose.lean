import MediaCatalog.Check.Records
import MediaCatalog.Item.Listing

namespace MediaCatalog

open Check

/-- Numbers compare by value, so a zero of any type is upright. -/
def looseOrientation : Json → Int
  | .int n => n
  | .bool b => if b then 1 else 0
  | .float x => (x.toInt?).getD 1
  | _ => 1

def ItemRow.ofColumns (path mimeType takenAt width height size orientation : Json) :
    Check ItemRow :=
  let o := looseOrientation orientation
  let w := if isUpright o then width else height
  let h := if isUpright o then height else width
  let make (path mimeType : String) (takenAt w h size : Int) : ItemRow :=
    let d := orientedDimensions o w h
    ⟨path, mimeType, takenAt, d.1, d.2, size, o⟩
  make <$> (text path).under (.field "location") <*> (text mimeType).under (.field "mime_type")
    <*> (int takenAt).under (.field "taken_at") <*> (int w).under (.field "width")
    <*> (int h).under (.field "height") <*> (int size).under (.field "size")

def ItemRow.ofTable (rows : List (Check ItemRow)) : Except Failure (List ItemRow) :=
  rows.mapM Check.toExcept

end MediaCatalog
