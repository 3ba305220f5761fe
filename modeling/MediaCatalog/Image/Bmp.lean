import MediaCatalog.Image.Picture

namespace MediaCatalog.Bmp

structure Header where
  offset : Nat
  width : Nat
  height : Int
  bits : Nat
  compression : Nat
  palette : Nat
  deriving DecidableEq, Repr

def readHeader (b : Bytes) : Option Header := do
  let offset ← Bytes.little? b 10 4
  let size ← Bytes.little? b 14 4
  if size = 12 then
    return ⟨offset, ← Bytes.little? b 18 2, ← Bytes.little? b 20 2, ← Bytes.little? b 24 2, 0, 26⟩
  else if size < 40 then none
  else
    let height ← Bytes.little? b 22 4
    return ⟨offset, ← Bytes.little? b 18 4, Bytes.signedOf 32 height, ← Bytes.little? b 28 2,
      ← Bytes.little? b 30 4, 14 + size⟩

def stride (h : Header) : Nat := (h.width * h.bits + 31) / 32 * 4

def isModel (h : Header) : Bool :=
  h.compression = 0 && (h.bits = 8 || h.bits = 24 || h.bits = 32)

def colorAt (h : Header) (file : Array UInt8) (x y : Nat) : Rgb :=
  let row := if h.height < 0 then y else h.height.natAbs - 1 - y
  let start := h.offset + row * stride h
  let at_ (i : Nat) := file.getD i 0
  if h.bits = 8 then
    let entry := h.palette + 4 * (at_ (start + x)).toNat
    ⟨at_ (entry + 2), at_ (entry + 1), at_ entry⟩
  else
    let p := start + x * (h.bits / 8)
    ⟨at_ (p + 2), at_ (p + 1), at_ p⟩

def openFile (b : Bytes) : Opening :=
  if !b.startsWith (Bytes.ascii "BM") then .notMine
  else match readHeader b with
    | none => .notMine
    | some h =>
      let height := h.height.natAbs
      if h.width = 0 || height = 0 then .notMine
      else .picture
        { format := .bmp
          width := h.width
          height
          tags := .ok []
          load :=
            if !isModel h then .ok (Raster.blank h.width height)
            else if b.length < h.offset + height * stride h then .error Picture.truncated
            else
              let file := b.toArray
              .ok ⟨h.width, height, colorAt h file⟩ }

end MediaCatalog.Bmp
