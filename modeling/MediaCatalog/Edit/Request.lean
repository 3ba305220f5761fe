import MediaCatalog.Item
import MediaCatalog.Json

namespace MediaCatalog

/-- One operation as a request states it. The angle counts for rotations only, and the box (left,
top, right, bottom) for crops. -/
structure EditOperation where
  kind : EditKind
  degrees : Binary64 := Binary64.zero
  box : Option (List Int) := none
  deriving DecidableEq, Repr

structure EditRequest where
  location : String
  operations : List EditOperation := []
  deriving DecidableEq, Repr

structure RenderRequest where
  items : List Item
  edits : List EditRequest := []
  deriving DecidableEq, Repr

structure RenderedPair where
  item : Item
  result : Item
  deriving DecidableEq, Repr

abbrev Operation := List Json

def Failure.cropNeedsBox : Failure := .ofValue "crop needs a box"

def EditOperation.operation (o : EditOperation) : Except Failure Operation :=
  match o.kind with
  | .rotate => .ok [.str "rotate", .float o.degrees]
  | .crop =>
    match o.box with
    | none => .error .cropNeedsBox
    | some box => .ok [.str "crop", .arr (box.map .int)]
  | k => .ok [.str k.word]

end MediaCatalog
