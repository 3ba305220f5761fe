import MediaCatalog.Delivery
import MediaCatalog.Image.Imaging
import MediaCatalog.Preview.Digest

namespace MediaCatalog.Preview

open World

def quality : Int := 82

def keyChars (path : List Char) (changedAt height : Int) : List Char :=
  path ++ '|' :: ((intText changedAt).toList ++ "|h=".toList ++ (intText height).toList)

def keyText (p : Path) (changedAt height : Int) : String :=
  String.ofList (keyChars p.chars changedAt height)

/-- The width that keeps the proportions; at least one. -/
def widthFor (width height : Nat) (target : Int) : Except Failure Int :=
  if height = 0 then .ok width
  else match Binary64.ofSigned (width * target) height with
    | .inf _ => .error ⟨.overflow, "integer division result too large for a float", []⟩
    | x => .ok (max ((x.trunc?).getD 0) 1)

def ofRaster (m : Imaging) (r : Raster) (height quality : Int) : Except Failure Bytes := do
  let small ← m.resize r (← widthFor r.width r.height height) height
  m.encode small quality

def ofBytes (m : Imaging) (b : Bytes) (height quality : Int) : Except Failure Bytes := do
  let picture ← m.decode b
  ofRaster m (← picture.uprightRaster) height quality

def make (m : Imaging) (p : Path) (height quality : Int) : Doing Bytes := do
  Act.ofExcept (ofBytes m (← load p) height quality)

structure Cache where
  dir : Path
  name : String → String := digest
  imaging : Imaging := .colourless

namespace Cache

/-- Directories have no time of change here. -/
def changedAt : Node → Int
  | .file _ t => t
  | _ => 0

def fileFor (c : Cache) (p : Path) (height : Int) : Doing Path := do
  let node ← stat p
  return c.dir / (c.name (keyText p (changedAt node) height) ++ ".jpg")

def keep (c : Cache) (file : Path) (data : Bytes) : Doing Unit := do
  ensureDir c.dir
  store file data

def makeOrNote (c : Cache) (p : Path) (height : Int) : Doing (Option Bytes) :=
  Act.recover (do return some (← make c.imaging p height quality)) Failure.isExpected fun f => do
    Act.log ⟨Log.debug, "mediashelf.thumbs", "no preview for %s: %s",
      [.text p.toString, .failure f], none⟩
    return none

/-- The kept preview, or a new one that is then kept, or else the file itself. -/
def deliver (c : Cache) (p : Path) (height : Int) : Doing Delivery := do
  let file ← c.fileFor p height
  if ← exists? file then return .file file Jpeg.mime
  else match ← c.makeOrNote p height with
    | none => return .ofFile p
    | some data =>
      c.keep file data
      return .made data Jpeg.mime

end Cache

end MediaCatalog.Preview
