import MediaCatalog.Image.Picture
import MediaCatalog.Text.Utf8

namespace MediaCatalog.Jpeg

structure Segments where
  size : Option (Nat × Nat) := none
  exif : Option Bytes := none
  deriving DecidableEq, Repr

inductive Scan where
  | found (s : Segments) (rest : Bytes)
  | malformed
  | failed (f : Failure)

def isFrame (marker : Nat) : Bool :=
  (0xC0 ≤ marker && marker ≤ 0xCF && marker ≠ 0xC4 && marker ≠ 0xC8 && marker ≠ 0xCC) ||
    marker = 0xDE

def isAlone (marker : Nat) : Bool :=
  (0xD0 ≤ marker && marker ≤ 0xD9) || marker = 0xC8 || (0xF0 ≤ marker && marker ≤ 0xFD)

def hasSegment (marker : Nat) : Bool :=
  (0xC0 ≤ marker && marker ≤ 0xCF && marker ≠ 0xC8) || (0xDA ≤ marker && marker ≤ 0xEF) ||
    marker = 0xFE

def exifMark : Bytes := [0x45, 0x78, 0x69, 0x66, 0, 0]

def take (s : Segments) (marker : Nat) (data : Bytes) : Option Segments :=
  if isFrame marker then do
    let precision ← Bytes.big? data 0 1
    let height ← Bytes.big? data 1 2
    let width ← Bytes.big? data 3 2
    let layers ← Bytes.big? data 5 1
    if precision = 8 && (layers = 1 || layers = 3 || layers = 4) then
      return { s with size := some (width, height) }
    else none
  else if marker = 0xE1 && data.startsWith exifMark then
    some { s with exif := match s.exif with
      | none => some (data.drop 6)
      | some e => some (e ++ data.drop 6) }
  else some s

def segments : Nat → Segments → Bytes → Scan
  | 0, _, _ => .malformed
  | fuel + 1, s, b =>
    match b with
    | 0xFF :: m :: rest =>
      let marker := m.toNat
      if marker = 0xFF then segments fuel s (m :: rest)
      else if marker = 0 then segments fuel s rest
      else if isAlone marker then segments fuel s rest
      else if hasSegment marker then
        match Bytes.big? rest 0 2 with
        | none => .malformed
        | some n =>
          match Bytes.slice? rest 2 (n - 2) with
          | none => .failed Picture.truncatedRead
          | some data =>
            match take s marker data with
            | none => .malformed
            | some s =>
              let rest := rest.drop (max n 2)
              if marker = 0xDA then .found s rest else segments fuel s rest
      else .malformed
    | _ :: rest => segments fuel s rest
    | [] => .malformed

def hasEnd : Bytes → Bool
  | 0xFF :: 0xD9 :: _ => true
  | _ :: rest => hasEnd rest
  | [] => false

def openFile (b : Bytes) : Opening :=
  if !b.startsWith [0xFF, 0xD8, 0xFF] then .notMine
  else match segments b.length {} (b.drop 2) with
    | .failed f => .broken f
    | .malformed => .notMine
    | .found s rest =>
      match s.size with
      | none => .notMine
      | some (w, h) =>
        if w = 0 || h = 0 then .notMine
        else .picture
          { format := .jpeg
            width := w
            height := h
            tags := match s.exif with
              | some e => .ok ((Exif.read e).toOption.getD [])
              | none => .ok []
            load := if hasEnd rest then .ok (Raster.blank w h) else .error Picture.truncated }

def mime : String := "image/jpeg"

def maxSide : Nat := 65500

def wordBytes (n : Nat) : Bytes := [(n / 256).toUInt8, (n % 256).toUInt8]

def frame (width height : Nat) : Bytes :=
  [0xFF, 0xC0] ++ wordBytes 17 ++ [8] ++ wordBytes height ++ wordBytes width ++
    [3, 1, 0x22, 0, 2, 0x11, 1, 3, 0x11, 1]

def scan : Bytes := [0xFF, 0xDA, 0, 12, 3, 1, 0, 2, 0x11, 3, 0x11, 0, 0x3F, 0]

def comment (quality : Int) : Bytes :=
  let text := Text.Utf8.ofString ("quality " ++ intText quality)
  [0xFF, 0xFE] ++ wordBytes (text.length + 2) ++ text

def emptyImage : Failure := .ofValue "cannot write empty image as JPEG"

def tooLarge : Failure := ⟨.system, "encoder error -2 when writing image file", []⟩

/-- A picture without pixels is refused, and so is one that is too wide or too high. -/
def encode (width height : Nat) (quality : Int) : Except Failure Bytes :=
  if width = 0 || height = 0 then .error emptyImage
  else if maxSide < width || maxSide < height then .error tooLarge
  else .ok ([0xFF, 0xD8] ++ comment quality ++ frame width height ++ scan ++ [0, 0xFF, 0xD9])

end MediaCatalog.Jpeg
