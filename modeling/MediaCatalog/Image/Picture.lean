import MediaCatalog.Image.Exif
import MediaCatalog.Image.Raster

namespace MediaCatalog

inductive Format where
  | png
  | jpeg
  | gif
  | bmp
  | ppm
  deriving DecidableEq, Repr

def Format.name : Format → String
  | .png => "PNG"
  | .jpeg => "JPEG"
  | .gif => "GIF"
  | .bmp => "BMP"
  | .ppm => "PPM"

structure Picture where
  format : Format
  width : Nat
  height : Nat
  tags : Except Failure Exif.Directory
  load : Except Failure Raster

inductive Opening where
  | picture (p : Picture)
  | notMine
  | broken (f : Failure)

namespace Picture

def truncated : Failure := ⟨.system, "image file is truncated", []⟩

def truncatedRead : Failure := ⟨.system, "Truncated File Read", []⟩

def brokenData : Failure := ⟨.system, "broken data stream when reading image file", []⟩

def unidentified : Failure := ⟨.unknownImage, "cannot identify image file", []⟩

def orientation (p : Picture) : Except Failure Nat := do return Exif.orientation (← p.tags)

def displaySize (p : Picture) : Except Failure (Nat × Nat) := do
  if liesOnSide (← p.orientation) then return (p.height, p.width) else return (p.width, p.height)

def uprightRaster (p : Picture) : Except Failure Raster := do
  let o ← p.orientation
  return upright o (← p.load)

end Picture

end MediaCatalog
