import MediaCatalog.Image.Picture
import MediaCatalog.Number.Reader

namespace MediaCatalog.Pnm

def isGap (b : UInt8) : Bool := b == 0x20 || (9 ≤ b && b ≤ 13)

def isLineEnd (b : UInt8) : Bool := b == 10 || b == 13

def afterComment (b : Bytes) : Bytes := (b.dropWhile (fun x => !isLineEnd x)).drop 1

def noToken : Failure := .ofValue "Reached EOF while reading header"

def longToken : Failure := .ofValue "Token too long in file header"

/-- The next word of at most ten characters, and what follows the blank behind it. -/
def token : Nat → Bytes → Bytes → Except Failure (Bytes × Bytes)
  | 0, _, _ => .error noToken
  | fuel + 1, word, b =>
    if 10 < word.length then .error longToken
    else match b with
      | [] => if word = [] then .error noToken else .ok (word, [])
      | c :: rest =>
        if isGap c then (if word = [] then token fuel [] rest else .ok (word, rest))
        else if c = 0x23 then token fuel word (afterComment rest)
        else token fuel (word ++ [c]) rest

def number (b : Bytes) : Except Failure (Int × Bytes) := do
  let (word, rest) ← token (b.length + 1) [] b
  let text := String.ofList (word.map (fun x => Char.ofNat x.toNat))
  match Number.int? text with
  | some n => return (n, rest)
  | none => throw (.ofValue ("invalid literal for int() with base 10: " ++ Text.quoted text))

def badMaximum : Failure := .ofValue "maxval must be greater than 0 and less than 65536"

def shortData : Failure := .ofValue "not enough image data"

def scale (maximum v : Nat) : UInt8 := (min 255 (roundDiv (v * 255) maximum)).toUInt8

def pixels (color : Bool) (width height maximum : Nat) (data : Bytes) : Except Failure Raster :=
  let bands := if color then 3 else 1
  let unit := if maximum < 256 then 1 else 2
  if data.length < width * height * bands * unit then
    .error (if maximum = 255 then Picture.truncated else shortData)
  else
    let samples := data.toArray
    let sample (i : Nat) : UInt8 :=
      if unit = 1 then scale maximum (samples.getD i 0).toNat
      else scale maximum ((samples.getD (2 * i) 0).toNat * 256 + (samples.getD (2 * i + 1) 0).toNat)
    .ok ⟨width, height, fun x y =>
      let i := (y * width + x) * bands
      if color then ⟨sample i, sample (i + 1), sample (i + 2)⟩ else ⟨sample i, sample i, sample i⟩⟩

def header (b : Bytes) : Except Failure ((Int × Int × Int) × Bytes) := do
  let (width, b) ← number b
  let (height, b) ← number b
  let (maximum, b) ← number b
  if 0 < maximum && maximum < 65536 then return ((width, height, maximum), b)
  else throw badMaximum

def openWith (color : Bool) (b : Bytes) : Opening :=
  match header b with
  | .error f => .broken f
  | .ok ((width, height, maximum), data) =>
    if width ≤ 0 || height ≤ 0 then .notMine
    else .picture
      { format := .ppm
        width := width.toNat
        height := height.toNat
        tags := .ok []
        load := pixels color width.toNat height.toNat maximum.toNat data }

def openFile (b : Bytes) : Opening :=
  match b with
  | 0x50 :: kind :: gap :: rest =>
    if isGap gap && (kind = 0x35 || kind = 0x36) then openWith (kind == 0x36) rest else .notMine
  | _ => .notMine

end MediaCatalog.Pnm
