import MediaCatalog.Edit.Request
import MediaCatalog.Edit.Rotation
import MediaCatalog.Json.Conversion

namespace MediaCatalog

structure Box where
  left : Int
  top : Int
  right : Int
  bottom : Int
  deriving DecidableEq, Repr

namespace Box

def missingCoordinate : Failure := ⟨.index, "tuple index out of range", []⟩

/-- Four coordinates in order. The first two comparisons are made as soon as they can be. -/
def ofList : List Int → Except Failure Box
  | left :: top :: right :: rest =>
    if right < left then .error (.ofValue "Coordinate 'right' is less than 'left'")
    else match rest with
      | [] => .error missingCoordinate
      | bottom :: more =>
        if bottom < top then .error (.ofValue "Coordinate 'lower' is less than 'upper'")
        else if more ≠ [] then .error (.ofValue "too many values to unpack (expected 4)")
        else .ok ⟨left, top, right, bottom⟩
  | _ => .error missingCoordinate

def width (b : Box) : Nat := (b.right - b.left).natAbs

def height (b : Box) : Nat := (b.bottom - b.top).natAbs

def fits (n : Int) : Bool := -(0x80000000 : Int) ≤ n && n < 0x80000000

def coordinates (b : Box) : List Int := [b.left, b.top, b.right, b.bottom]

/-- The part of a raster; too large ones and coordinates beyond 32 bits are refused. -/
def crop (b : Box) (r : Raster) : Except Failure Raster :=
  if isHuge b.width b.height then .error hugeImage
  else if b.coordinates.all fits then .ok (r.crop b.left b.top b.width b.height)
  else .error ⟨.overflow, "signed integer is greater than maximum", []⟩

end Box

inductive Transformation where
  | rotate (degrees : Binary64)
  | mirror
  | flip
  | crop (coordinates : List Int)
  deriving DecidableEq, Repr

def Transformation.apply (t : Transformation) (r : Raster) : Except Failure Raster :=
  match t with
  | .rotate degrees => Rotation.rotate degrees r
  | .mirror => .ok r.mirror
  | .flip => .ok r.flip
  | .crop coordinates => do (← Box.ofList coordinates).crop r

namespace Operation

def tooShort : Failure := ⟨.index, "tuple index out of range", []⟩

def name : Operation → Except Failure Json
  | [] => .error tooShort
  | n :: _ => .ok n

def argument : Operation → Except Failure Json
  | _ :: a :: _ => .ok a
  | _ => .error tooShort

/-- Lists stand in round brackets, since those of an operation never change. -/
def shownName : Json → String
  | .arr [x] => "(" ++ shownName x ++ ",)"
  | .arr xs => "(" ++ ", ".intercalate (xs.map shownName) ++ ")"
  | v => v.shown

def unknown (name : Json) : Failure := .ofValue ("unknown edit operation " ++ shownName name)

def transformation (o : Operation) : Except Failure Transformation := do
  match ← o.name with
  | .str "rotate" => return .rotate (← (← o.argument).toReal)
  | .str "mirror" => return .mirror
  | .str "flip" => return .flip
  | .str "crop" => return .crop (← (← (← o.argument).sequence).mapM Json.toInt)
  | n => throw (unknown n)

end Operation

end MediaCatalog
