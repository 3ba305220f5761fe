import MediaCatalog.Image.Jpeg
import MediaCatalog.Image.Open

namespace MediaCatalog

/-- What an imaging library does: it reads files as pictures, scales rasters and writes them as JPEG
files of a quality. -/
structure Imaging where
  decode : Bytes → Except Failure Picture
  resize : Raster → (width height : Int) → Except Failure Raster
  encode : Raster → (quality : Int) → Except Failure Bytes

namespace Imaging

def fitsSide (n : Int) : Bool := -(0x80000000 : Int) ≤ n && n < 0x80000000

def sideOverflow : Failure := ⟨.overflow, "a side is out of range", []⟩

def noSide : Failure := .ofValue "height and width must be > 0"

def blankOf (r : Raster) (width height : Int) : Except Failure Raster :=
  if width = r.width ∧ height = r.height then .ok r
  else if !fitsSide width || !fitsSide height then .error sideOverflow
  else if width < 1 || height < 1 then .error noSide
  else .ok (Raster.blank width.toNat height.toNat)

/-- Stands in for a library where sizes and failures matter and colours do not: scaling blanks a
raster, and writing keeps its size and the quality only. -/
def colourless : Imaging where
  decode := Picture.ofBytes
  resize := blankOf
  encode r quality := Jpeg.encode r.width r.height quality

end Imaging

end MediaCatalog
