import MediaCatalog.Folder.Scan
import MediaCatalog.Json.Conversion
import MediaCatalog.Text.Percent
import MediaCatalog.Text.Utf8

namespace MediaCatalog.Index

/-- Bytes that are stored as a text, though they are not UTF-8. -/
structure GarbledText where
  bytes : List UInt8
  isInvalid : Text.Utf8.decode? bytes = none
  deriving DecidableEq, Repr

/-- A value in a column. The column's type is only a preference: what cannot be converted without
loss is stored as it came. -/
inductive Cell where
  | null
  | int (n : Int)
  | real (x : Binary64)
  | text (s : String)
  | garbled (t : GarbledText)
  | blob (bytes : List UInt8)
  deriving DecidableEq, Repr

namespace Cell

def fitsWord (n : Int) : Bool := -(0x8000000000000000 : Int) ≤ n && n < 0x8000000000000000

def isSpace (c : Char) : Bool := c == ' ' || (9 ≤ c.toNat && c.toNat ≤ 13)

/-- Fractions of zero become whole numbers, short of the ends of the range. -/
def ofReal (x : Binary64) : Cell :=
  match x.toInt? with
  | some n => if n.natAbs < 0x8000000000000000 then .int n else .real x
  | none => .real x

def wholeNumber? (s : List Char) : Option Int :=
  let (neg, ds) := Number.splitSign s
  let n := Binary64.signed neg (Number.digitsValue ds)
  if ds != [] && ds.all Char.isDigit && fitsWord n then some n else none

/-- A number when the text is one, with blanks around it allowed. -/
def ofNumeric (s : String) : Cell :=
  let cs := Text.trim isSpace s.toList
  match wholeNumber? cs with
  | some n => .int n
  | none =>
    let (neg, rest) := Number.splitSign cs
    match Number.decimal? neg rest with
    | some x => ofReal x
    | none => .text s

def asInteger : Cell → Cell
  | .real x => ofReal x
  | .text s => ofNumeric s
  | c => c

/-- Fifteen significant digits, positional below `10 ^ 15`; there is always a digit after the
point. -/
def realText (x : Binary64) : String :=
  match x with
  | .nan => ""
  | .inf neg => if neg then "-Inf" else "Inf"
  | .finite neg m q =>
    if m = 0 then "0.0"
    else
      let (num, den) := Binary64.ratio m q
      let e := Binary64.log10Ratio num den
      let s := e - 14
      let d := if 0 ≤ s then (2 * num + den * Nat.pow 10 s.toNat) / (2 * den * Nat.pow 10 s.toNat)
        else (2 * num * Nat.pow 10 (-s).toNat + den) / (2 * den)
      let ds := Nat.toDigits 10 d
      let point : Int := ds.length + s
      let kept := Binary64.stripZeros ds
      let text :=
        if -4 < point && point ≤ 15 then Binary64.layout kept point
        else
          let frac := if kept.length ≤ 1 then ['0'] else kept.drop 1
          String.ofList (kept.take 1 ++ '.' :: frac) ++ "e" ++ Binary64.exponentText (point - 1)
      (if neg then "-" else "") ++ text

def asText : Cell → Cell
  | .int n => .text (intText n)
  | .real x => .text (realText x)
  | c => c

def bytes : Cell → List UInt8
  | .text s => Text.Utf8.ofString s
  | .garbled t => t.bytes
  | .blob bytes => bytes
  | _ => []

/-- Nulls come first, then numbers, then texts, then blobs. What is not a number counts as null. -/
def rank : Cell → Nat
  | .null | .real .nan => 0
  | .int _ | .real _ => 1
  | .text _ | .garbled _ => 2
  | .blob _ => 3

/-- The exact number, however large. -/
def number : Cell → Binary64
  | .int n => .finite (n < 0) n.natAbs 0
  | .real x => x
  | _ => Binary64.zero

def weights (bytes : List UInt8) : List Nat := bytes.map (·.toNat)

/-- Numbers compare by value, texts and blobs by their bytes. -/
def lt (a b : Cell) : Bool :=
  if a.rank = b.rank then a.number.lt b.number || weights a.bytes < weights b.bytes
  else a.rank < b.rank

def spelled? : Cell → Option Int
  | .text s => Number.int? s
  | c => Number.ofBytes? c.bytes

def badInt : Cell → Failure
  | .text s => Number.badInt s
  | c => Number.badBytes c.bytes

/-- Zero, null and what is empty stand for zero. -/
def toInt : Cell → Except Failure Int
  | .null => .ok 0
  | .int n => .ok n
  | .real x => x.wholePart
  | c =>
    if c.bytes = [] then .ok 0
    else match c.spelled? with
      | some n => .ok n
      | none => .error c.badInt

def text? : Cell → Option String
  | .text s => some s
  | _ => none

def isText (c : Cell) : Bool := c.rank == 2

def notAPath : Failure :=
  ⟨.type, "argument should be a str object or an os.PathLike object returning str, " ++
    "not <class 'bytes'>", []⟩

/-- Paths are texts, and are not read from bytes. -/
def asPath : Cell → Except Failure String
  | .text s => .ok s
  | _ => .error notAPath

def orEmpty : Cell → Cell
  | .null | .blob [] => .text ""
  | c => c

def label : Cell → Option Cell
  | .null => none
  | c => some c

def wordOverflow : Failure := ⟨.overflow, "the number does not fit in 64 bits", []⟩

/-- What a database says of a text in a selected column that is not UTF-8. It has room for 198
bytes, shows the text up to a null character and replaces what is not ASCII. -/
def undecodable? (column : String) : Cell → Option Failure
  | .garbled t =>
    let message :=
      Text.Utf8.ofString ("Could not decode to UTF-8 column '" ++ column ++ "' with text '") ++
        t.bytes.takeWhile (· != 0) ++ Text.Utf8.ofString "'"
    let shown (b : UInt8) : Char := if b < 0x80 then Char.ofNat b.toNat else '\uFFFD'
    some ⟨.operational, String.ofList ((message.take 198).map shown), []⟩
  | _ => none

def hexBytes? : List Char → Option (List UInt8)
  | [] => some []
  | a :: b :: rest => do
    let a ← Text.Percent.hexValue? a
    let b ← Text.Percent.hexValue? b
    return (16 * a + b).toUInt8 :: (← hexBytes? rest)
  | [_] => none

def hexText (bytes : List UInt8) : String :=
  String.ofList (bytes.flatMap fun b => Text.hexText 2 b.toNat)

/-- What a parameter is stored as. Bytes come as an object with their digits. -/
def ofJson (j : Json) : Except Failure Cell :=
  let unsupported := .error ⟨.other "InterfaceError", "type is not supported", []⟩
  match j with
  | .null => .ok .null
  | .bool b => .ok (.int (if b then 1 else 0))
  | .int n => if fitsWord n then .ok (.int n) else .error wordOverflow
  | .float .nan => .ok .null
  | .float x => .ok (.real x)
  | .str s => .ok (.text s)
  | .obj [("bytes", .str digits)] =>
    match hexBytes? digits.toList with
    | some bytes => .ok (.blob bytes)
    | none => unsupported
  | _ => unsupported

end Cell

/-- Bytes pass for a text if they are UTF-8. -/
instance : Label Cell where
  read
    | .text s => .ok s
    | .blob bytes =>
      match Text.Utf8.decode? bytes with
      | some s => .ok (String.ofList s)
      | none => .error .textUnicode
    | _ => .error .textType
  shown
    | .null => "None"
    | .int n => intText n
    | .real x => x.text
    | .text s => s
    | c => Text.quotedBytes c.bytes

end MediaCatalog.Index
