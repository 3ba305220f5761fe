import MediaCatalog.Image.Bmp
import MediaCatalog.Image.Gif
import MediaCatalog.Image.Jpeg
import MediaCatalog.Image.Png
import MediaCatalog.Image.Pnm
import MediaCatalog.World

namespace MediaCatalog.Picture

def openers : List (Bytes → Opening) :=
  [Bmp.openFile, Gif.openFile, Jpeg.openFile, Pnm.openFile, Png.openFile]

def firstOpening (b : Bytes) : List (Bytes → Opening) → Except Failure Picture
  | [] => .error unidentified
  | reader :: rest =>
    match reader b with
    | .picture p => if isHuge p.width p.height then .error hugeImage else .ok p
    | .broken f => .error f
    | .notMine => firstOpening b rest

def ofBytes (b : Bytes) : Except Failure Picture := firstOpening b openers

def openPath (p : Path) : World.Doing Picture := do
  Act.ofExcept (ofBytes (← World.load p))

end MediaCatalog.Picture
