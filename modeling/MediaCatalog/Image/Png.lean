import MediaCatalog.Image.Checksum
import MediaCatalog.Image.Inflate
import MediaCatalog.Image.Picture

namespace MediaCatalog.Png

structure Header where
  width : Nat := 0
  height : Nat := 0
  depth : Nat := 0
  color : Nat := 0
  deriving DecidableEq, Repr

structure Chunks where
  header : Option Header := none
  palette : Bytes := []
  exif : Option Bytes := none
  deriving DecidableEq, Repr

def signature : Bytes := [0x89, 0x50, 0x4E, 0x47, 0x0D, 0x0A, 0x1A, 0x0A]

def isWordByte (b : UInt8) : Bool :=
  let c := Char.ofNat b.toNat
  c.isAlphanum || c == '_'

inductive Named where
  | missing
  | chunk (name : Bytes) (length : Nat) (rest : Bytes)

def next (b : Bytes) : Named :=
  match Bytes.big? b 0 4 with
  | none => .missing
  | some n =>
    let name := (b.drop 4).take 4
    if name.length = 4 && name.all isWordByte then .chunk name n (b.drop 8) else .missing

def readHeader (data : Bytes) : Option Header := do
  let width ← Bytes.big? data 0 4
  let height ← Bytes.big? data 4 4
  let depth ← Bytes.big? data 8 1
  let color ← Bytes.big? data 9 1
  return ⟨width, height, depth, color⟩

def take (chunks : Chunks) (name data : Bytes) : Chunks :=
  if name = Bytes.ascii "IHDR" then { chunks with header := readHeader data }
  else if name = Bytes.ascii "PLTE" then { chunks with palette := data }
  else if name = Bytes.ascii "eXIf" then { chunks with exif := some data }
  else chunks

inductive Front where
  | pixels (chunks : Chunks) (length : Nat) (rest : Bytes)
  | ended (chunks : Chunks)
  | malformed
  | failed (f : Failure)

def shortHeader : Failure := .ofValue "Truncated IHDR chunk"

def front : Nat → Chunks → Bytes → Front
  | 0, _, _ => .malformed
  | fuel + 1, chunks, b =>
    match next b with
    | .missing => .malformed
    | .chunk name n rest =>
      if name = Bytes.ascii "IDAT" then .pixels chunks n rest
      else if name = Bytes.ascii "IEND" then .ended chunks
      else match Bytes.slice? rest 0 n with
        | none => .failed Picture.truncatedRead
        | some data =>
          if name = Bytes.ascii "IHDR" && n < 13 then .failed shortHeader
          else if Bytes.big? rest n 4 = some (Checksum.crc32 (name ++ data)) then
            front fuel (take chunks name data) (rest.drop (n + 4))
          else .malformed

/-- The packed pixels of all chunks of pixels that follow each other, and what comes after. -/
def packed : Nat → Nat → Bytes → Bytes × Bytes
  | 0, _, b => (b, [])
  | fuel + 1, n, b =>
    let rest := b.drop (n + 4)
    match next rest with
    | .chunk name m more =>
      if name = Bytes.ascii "IDAT" then
        let p := packed fuel m more
        (b.take n ++ p.1, p.2)
      else (b.take n, rest)
    | .missing => (b.take n, rest)

def tailTags : Nat → Bytes → Option Bytes
  | 0, _ => none
  | fuel + 1, b =>
    match next b with
    | .missing => none
    | .chunk name n rest =>
      if name = Bytes.ascii "IEND" then none
      else if name = Bytes.ascii "eXIf" then Bytes.slice? rest 0 n
      else tailTags fuel (rest.drop (n + 4))

def channels? (color : Nat) : Option Nat :=
  match color with
  | 0 | 3 => some 1
  | 2 => some 3
  | 4 => some 2
  | 6 => some 4
  | _ => none

def paeth (a b c : Int) : Int :=
  let p := a + b - c
  let da := (p - a).natAbs
  let db := (p - b).natAbs
  let dc := (p - c).natAbs
  if da ≤ db && da ≤ dc then a else if db ≤ dc then b else c

def predict (filter : Nat) (left up corner : UInt8) : UInt8 :=
  match filter with
  | 1 => left
  | 2 => up
  | 3 => ((left.toNat + up.toNat) / 2).toUInt8
  | 4 => (paeth left.toNat up.toNat corner.toNat).toNat.toUInt8
  | _ => 0

def unfilter (filter unit : Nat) (above : Array UInt8) (raw : Bytes) : Array UInt8 :=
  raw.foldl (fun row x =>
    let i := row.size
    let left := if unit ≤ i then row.getD (i - unit) 0 else 0
    let corner := if unit ≤ i then above.getD (i - unit) 0 else 0
    row.push (x + predict filter left (above.getD i 0) corner)) #[]

/-- All rows, or nothing when bytes are missing or a filter is unknown. -/
def rowsFrom (width unit : Nat) : Nat → Array UInt8 → Bytes → Except Failure (List (Array UInt8))
  | 0, _, _ => .ok []
  | n + 1, above, b =>
    match b with
    | [] => .error Picture.truncated
    | filter :: rest =>
      let raw := rest.take (width * unit)
      if raw.length < width * unit then .error Picture.truncated
      else if 4 < filter.toNat then .error Picture.brokenData
      else do
        let row := unfilter filter.toNat unit above raw
        let more ← rowsFrom width unit n row (rest.drop (width * unit))
        return row :: more

def colorAt (color : Nat) (palette : Array UInt8) (row : Array UInt8) (x : Nat) : Rgb :=
  let at_ (i : Nat) := row.getD i 0
  match color with
  | 0 => ⟨at_ x, at_ x, at_ x⟩
  | 4 => ⟨at_ (2 * x), at_ (2 * x), at_ (2 * x)⟩
  | 2 => ⟨at_ (3 * x), at_ (3 * x + 1), at_ (3 * x + 2)⟩
  | 6 => ⟨at_ (4 * x), at_ (4 * x + 1), at_ (4 * x + 2)⟩
  | _ =>
    let i := (at_ x).toNat
    ⟨palette.getD (3 * i) 0, palette.getD (3 * i + 1) 0, palette.getD (3 * i + 2) 0⟩

def unsupported : Failure := ⟨.system, "unsupported kind of pixels", []⟩

def pixels (h : Header) (palette packed : Bytes) : Except Failure Raster :=
  match channels? h.color with
  | none => .error unsupported
  | some unit =>
    if h.depth ≠ 8 then .error unsupported
    else do
      let unpacked := Inflate.unpack packed
      let needed := h.height * (h.width * unit + 1)
      if unpacked.bytes.length < needed && unpacked.ending = .broken then
        throw Picture.brokenData
      let rows := (← rowsFrom h.width unit h.height #[] unpacked.bytes).toArray
      let palette := palette.toArray
      return ⟨h.width, h.height, fun x y => colorAt h.color palette (rows.getD y #[]) x⟩

/-- Tags that do not stand before the pixels are only known when the pixels have been read. -/
def picture (chunks : Chunks) (h : Header) (length : Nat) (rest : Bytes) : Picture :=
  let (data, tail) := packed rest.length length rest
  let load := pixels h chunks.palette data
  { format := .png
    width := h.width
    height := h.height
    tags := match chunks.exif with
      | some tags => Exif.read tags
      | none => do
        let _ ← load
        match tailTags tail.length tail with
        | some tags => Exif.read tags
        | none => return []
    load }

def isModel (h : Header) : Bool := (channels? h.color).isSome

def openFile (b : Bytes) : Opening :=
  if !b.startsWith signature then .notMine
  else match front b.length {} (b.drop 8) with
    | .failed f => .broken f
    | .malformed | .ended _ => .notMine
    | .pixels chunks n rest =>
      match chunks.header with
      | none => .notMine
      | some h =>
        if h.width = 0 || h.height = 0 || !isModel h then .notMine
        else .picture (picture chunks h n rest)

end MediaCatalog.Png
