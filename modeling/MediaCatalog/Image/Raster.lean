import MediaCatalog.Failure

namespace MediaCatalog

structure Rgb where
  red : UInt8
  green : UInt8
  blue : UInt8
  deriving DecidableEq, Repr

def Rgb.black : Rgb := ⟨0, 0, 0⟩

/-- The first coordinate goes right, the second one down. -/
structure Raster where
  width : Nat
  height : Nat
  pixel : Nat → Nat → Rgb

namespace Raster

def blank (width height : Nat) : Raster := ⟨width, height, fun _ _ => .black⟩

def size (r : Raster) : Nat × Nat := (r.width, r.height)

def row (r : Raster) (y : Nat) : List Rgb := (List.range r.width).map (fun x => r.pixel x y)

def rows (r : Raster) : List (List Rgb) := (List.range r.height).map r.row

def mirror (r : Raster) : Raster := { r with pixel := fun x y => r.pixel (r.width - 1 - x) y }

def flip (r : Raster) : Raster := { r with pixel := fun x y => r.pixel x (r.height - 1 - y) }

def transpose (r : Raster) : Raster := ⟨r.height, r.width, fun x y => r.pixel y x⟩

def halfTurn (r : Raster) : Raster := r.mirror.flip

/-- A quarter turn against the clock. -/
def quarterTurn (r : Raster) : Raster := r.transpose.flip

def threeQuarterTurn (r : Raster) : Raster := r.transpose.mirror

def transverse (r : Raster) : Raster := r.transpose.halfTurn

/-- The part between two corners; what lies outside the picture is black. -/
def crop (r : Raster) (left top : Int) (width height : Nat) : Raster :=
  ⟨width, height, fun x y =>
    let u := left + x
    let v := top + y
    if 0 ≤ u && u < r.width && 0 ≤ v && v < r.height then r.pixel u.toNat v.toNat
    else .black⟩

end Raster

def upright (orientation : Nat) (r : Raster) : Raster :=
  match orientation with
  | 2 => r.mirror
  | 3 => r.halfTurn
  | 4 => r.flip
  | 5 => r.transpose
  | 6 => r.threeQuarterTurn
  | 7 => r.transverse
  | 8 => r.quarterTurn
  | _ => r

def liesOnSide (orientation : Nat) : Bool := 5 ≤ orientation && orientation ≤ 8

def maxPixels : Nat := 178956970

def isHuge (width height : Nat) : Bool := maxPixels < max 1 width * max 1 height

def hugeImage : Failure := ⟨.hugeImage, "Image size exceeds limit", []⟩

end MediaCatalog
