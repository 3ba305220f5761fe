import MediaCatalog.Image.Picture

namespace MediaCatalog.Gif

/-- What follows a chain of blocks, each with its length in front; a length of zero ends it. -/
def afterBlocks : Nat → Bytes → Option Bytes
  | 0, _ => none
  | fuel + 1, b =>
    match b with
    | [] => none
    | n :: rest => if n = 0 then some rest else afterBlocks fuel (rest.drop n.toNat)

def frame? : Nat → Bytes → Option ((Nat × Nat) × Bytes)
  | 0, _ => none
  | fuel + 1, b =>
    match b with
    | 0x21 :: rest =>
      match afterBlocks b.length (rest.drop 1) with
      | some rest => frame? fuel rest
      | none => none
    | 0x2C :: rest => do
      let left ← Bytes.little? rest 0 2
      let top ← Bytes.little? rest 2 2
      let width ← Bytes.little? rest 4 2
      let height ← Bytes.little? rest 6 2
      let flags ← Bytes.little? rest 8 1
      let table := if flags / 128 % 2 = 1 then 3 * Nat.pow 2 (flags % 8 + 1) else 0
      return ((left + width, top + height), rest.drop (9 + table + 1))
    | 0x3B :: _ => none
    | _ :: rest => frame? fuel rest
    | [] => none

def openFile (b : Bytes) : Opening :=
  if !(b.startsWith (Bytes.ascii "GIF87a") || b.startsWith (Bytes.ascii "GIF89a")) then .notMine
  else
    let opened : Option Picture := do
      let width ← Bytes.little? b 6 2
      let height ← Bytes.little? b 8 2
      let flags ← Bytes.little? b 10 1
      let table := if flags / 128 % 2 = 1 then 3 * Nat.pow 2 (flags % 8 + 1) else 0
      let ((right, bottom), data) ← frame? b.length (b.drop (13 + table))
      let w := max width right
      let h := max height bottom
      if w = 0 || h = 0 then none
      else return {
        format := .gif
        width := w
        height := h
        tags := .ok []
        load := if (afterBlocks data.length data).isSome then .ok (Raster.blank w h)
          else .error Picture.truncated }
    match opened with
    | some p => .picture p
    | none => .notMine

end MediaCatalog.Gif
