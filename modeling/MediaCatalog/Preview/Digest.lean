import MediaCatalog.Text.Quoted
import MediaCatalog.Text.Utf8

namespace MediaCatalog.Preview

structure Words where
  a : UInt32
  b : UInt32
  c : UInt32
  d : UInt32
  e : UInt32
  deriving DecidableEq, Repr

def Words.start : Words := ⟨0x67452301, 0xEFCDAB89, 0x98BADCFE, 0x10325476, 0xC3D2E1F0⟩

def Words.add (x y : Words) : Words := ⟨x.a + y.a, x.b + y.b, x.c + y.c, x.d + y.d, x.e + y.e⟩

def turn (n : UInt32) (x : UInt32) : UInt32 := (x <<< n) ||| (x >>> (32 - n))

def bytesOf : Nat → Nat → List UInt8
  | 0, _ => []
  | k + 1, n => bytesOf k (n / 256) ++ [n.toUInt8]

/-- A mark, zeros and the length in bits fill the message up to whole blocks. -/
def padded (message : List UInt8) : List UInt8 :=
  let zeros := (119 - message.length % 64) % 64
  message ++ 0x80 :: List.replicate zeros 0 ++ bytesOf 8 (message.length * 8)

def word (b : List UInt8) : UInt32 := b.foldl (fun n x => n <<< 8 ||| x.toUInt32) 0

def wordsOf : List UInt8 → List UInt32
  | a :: b :: c :: d :: rest => word [a, b, c, d] :: wordsOf rest
  | _ => []

/-- Sixteen words and those that follow from them, the latest first. -/
def schedule : Nat → List UInt32 → List UInt32
  | 0, ws => ws
  | n + 1, ws =>
    let at_ (i : Nat) := ws.getD i 0
    schedule n (turn 1 (at_ 2 ^^^ at_ 7 ^^^ at_ 13 ^^^ at_ 15) :: ws)

def roundOf (i : Nat) (w : Words) : UInt32 × UInt32 :=
  if i < 20 then ((w.b &&& w.c) ||| (~~~w.b &&& w.d), 0x5A827999)
  else if i < 40 then (w.b ^^^ w.c ^^^ w.d, 0x6ED9EBA1)
  else if i < 60 then ((w.b &&& w.c) ||| (w.b &&& w.d) ||| (w.c &&& w.d), 0x8F1BBCDC)
  else (w.b ^^^ w.c ^^^ w.d, 0xCA62C1D6)

def round (w : Words) (x : UInt32 × Nat) : Words :=
  let (f, k) := roundOf x.2 w
  ⟨turn 5 w.a + f + w.e + k + x.1, w.a, turn 30 w.b, w.c, w.d⟩

def absorb (w : Words) (block : List UInt32) : Words :=
  w.add (((schedule 64 block.reverse).reverse.zipIdx).foldl round w)

def absorbAll : Nat → Words → List UInt32 → Words
  | 0, w, _ => w
  | n + 1, w, ws => if ws.isEmpty then w else absorbAll n (absorb w (ws.take 16)) (ws.drop 16)

def Words.hex (w : Words) : String :=
  String.ofList ([w.a, w.b, w.c, w.d, w.e].flatMap fun x => Text.hexText 8 x.toNat)

def digest (text : String) : String :=
  let ws := wordsOf (padded (Text.Utf8.ofString text))
  (absorbAll ws.length .start ws).hex

end MediaCatalog.Preview
