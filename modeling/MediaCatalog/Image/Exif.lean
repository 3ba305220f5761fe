import MediaCatalog.Image.Bytes
import MediaCatalog.Metadata.Tags

namespace MediaCatalog.Exif

inductive Value where
  | bytes (b : Bytes)
  | text (s : String)
  | ints (ns : List Int)
  | ratios (rs : List (Int × Int))
  | floats (xs : List Binary64)
  deriving DecidableEq, Repr

abbrev Directory := List (Nat × Value)

inductive Order where
  | big
  | little
  deriving DecidableEq, Repr

def Order.number (o : Order) (b : Bytes) : Nat :=
  match o with
  | .big => Bytes.bigEndian b
  | .little => Bytes.littleEndian b

def unitSize? : Nat → Option Nat
  | 1 | 2 | 6 | 7 => some 1
  | 3 | 8 => some 2
  | 4 | 9 | 11 | 13 => some 4
  | 5 | 10 | 12 | 16 => some 8
  | _ => none

def chunksFrom (n : Nat) : Nat → Bytes → List Bytes
  | 0, _ => []
  | fuel + 1, b => if b.length < n || n = 0 then [] else b.take n :: chunksFrom n fuel (b.drop n)

def chunks (n : Nat) (b : Bytes) : List Bytes := chunksFrom n b.length b

def singleOfBits (bits : Nat) : Binary64 :=
  let neg : Bool := bits / 0x80000000 % 2 == 1
  let e : Nat := bits / 0x800000 % 256
  let f : Nat := bits % 0x800000
  if e = 255 then (if f = 0 then .inf neg else .nan)
  else if e = 0 then Binary64.ofRatio neg f (Nat.pow 2 149)
  else if 150 ≤ e then Binary64.ofRatio neg ((f + 0x800000) * Nat.pow 2 (e - 150)) 1
  else Binary64.ofRatio neg (f + 0x800000) (Nat.pow 2 (150 - e))

/-- A text ends before its closing null. -/
def textOf (b : Bytes) : String :=
  let b := if b.getLast? = some 0 then b.dropLast else b
  String.ofList (b.map (fun x => Char.ofNat x.toNat))

def valueOf (o : Order) (type : Nat) (data : Bytes) : Value :=
  let unsigned (n : Nat) := (chunks n data).map (fun c => (o.number c : Int))
  let signed (n : Nat) := (chunks n data).map (fun c => Bytes.signedOf (8 * n) (o.number c))
  let pairs (ns : List Int) : List (Int × Int) :=
    (ns.zipIdx.filter (fun p => p.2 % 2 = 0)).map (fun p => (p.1, ns.getD (p.2 + 1) 0))
  match type with
  | 2 => .text (textOf data)
  | 3 => .ints (unsigned 2)
  | 4 | 13 => .ints (unsigned 4)
  | 5 => .ratios (pairs (unsigned 4))
  | 6 => .ints (signed 1)
  | 8 => .ints (signed 2)
  | 9 => .ints (signed 4)
  | 10 => .ratios (pairs (signed 4))
  | 11 => .floats ((chunks 4 data).map (fun c => singleOfBits (o.number c)))
  | 12 => .floats ((chunks 8 data).map (fun c => Binary64.ofBits (o.number c)))
  | 16 => .ints (unsigned 8)
  | _ => .bytes data

def setTag (tag : Nat) (v : Value) (d : Directory) : Directory :=
  d.filter (fun p => p.1 ≠ tag) ++ [(tag, v)]

/-- Reads entries until one lies beyond the end. Entries of unknown types and empty ones are
skipped. -/
def entriesFrom (o : Order) (file : Bytes) : Nat → Nat → Directory → Directory
  | 0, _, found => found
  | n + 1, pos, found =>
    match Bytes.slice? file pos 12 with
    | none => found
    | some e =>
      let tag := o.number (e.take 2)
      let type := o.number ((e.drop 2).take 2)
      let count := o.number ((e.drop 4).take 4)
      match unitSize? type with
      | none => entriesFrom o file n (pos + 12) found
      | some unit =>
        let size := count * unit
        let inline := (e.drop 8).take size
        let data? := if 4 < size then Bytes.slice? file (o.number (e.drop 8)) size else some inline
        match data? with
        | none => found
        | some [] => entriesFrom o file n (pos + 12) found
        | some data => entriesFrom o file n (pos + 12) (setTag tag (valueOf o type data) found)

def orderOf? (file : Bytes) : Option Order :=
  match file.take 4 with
  | [0x4D, 0x4D, 0, 0x2A] | [0x4D, 0x4D, 0x2A, 0] => some .big
  | [0x49, 0x49, 0x2A, 0] | [0x49, 0x49, 0, 0x2A] => some .little
  | _ => none

def badHeader : Failure := ⟨.other "SyntaxError", "not a TIFF file", []⟩

def read (file : Bytes) : Except Failure Directory :=
  match orderOf? file with
  | none => .error badHeader
  | some o =>
    match Bytes.slice? file 4 4 with
    | none => .error ⟨.other "error", "unpack requires a buffer of 4 bytes", []⟩
    | some at_ =>
      let start := o.number at_
      match Bytes.slice? file start 2 with
      | none => .ok []
      | some n => .ok (entriesFrom o file (o.number n) (start + 2) [])

def get? (d : Directory) (tag : Nat) : Option Value :=
  (d.find? (fun p => p.1 = tag)).map (·.2)

def orientationTag : Nat := 0x0112

/-- The orientation, if it is one whole number. Without the tag it is 1. -/
def orientation (d : Directory) : Nat :=
  match get? d orientationTag with
  | none => 1
  | some (.ints (n :: _)) => n.toNat
  | some (.floats [x]) => ((x.toInt?).getD 1).toNat
  | some (.ratios ((n, d) :: _)) => if d ≠ 0 && n % d = 0 then (n / d).toNat else 1
  | some _ => 1

/-- Tags that have one value; of more only the first counts. -/
def isSingle (tag : Nat) : Bool :=
  [254, 255, 256, 257, 259, 262, 263, 264, 265, 266, 269, 270, 271, 272, 274, 277, 278, 282, 283,
   284, 285, 286, 287, 288, 289, 290, 292, 293, 296, 305, 306, 315, 316, 317, 322, 323].contains tag

def ratioText (r : Int × Int) : String :=
  if r.2 = 0 then "nan" else (Binary64.ofSigned (r.1 * r.2.sign) r.2.natAbs).text

def tupleText (parts : List String) : String :=
  match parts with
  | [p] => "(" ++ p ++ ",)"
  | ps => "(" ++ ", ".intercalate ps ++ ")"

def listed (values : List Json) : Json :=
  match values with
  | [v] => v
  | vs => .arr vs

/-- The value as JSON; what JSON lacks becomes text. -/
def Value.toJson (single : Bool) (v : Value) : Json :=
  match v with
  | .bytes b => (Metadata.Found.bytes b).toJson
  | .text s => .str s
  | .ints ns => listed ((if single then ns.take 1 else ns).map .int)
  | .floats xs => listed ((if single then xs.take 1 else xs).map .float)
  | .ratios rs =>
    match if single then rs.take 1 else rs with
    | [r] => .str (ratioText r)
    | rs => .str (tupleText (rs.map ratioText))

def names : List (Nat × String) :=
  [(0x0001, "InteropIndex"), (0x000B, "ProcessingSoftware"), (0x00FE, "NewSubfileType"),
   (0x00FF, "SubfileType"), (0x0100, "ImageWidth"), (0x0101, "ImageLength"),
   (0x0102, "BitsPerSample"), (0x0103, "Compression"), (0x0106, "PhotometricInterpretation"),
   (0x0107, "Thresholding"), (0x0108, "CellWidth"), (0x0109, "CellLength"),
   (0x010A, "FillOrder"), (0x010D, "DocumentName"), (0x010E, "ImageDescription"),
   (0x010F, "Make"), (0x0110, "Model"), (0x0111, "StripOffsets"), (0x0112, "Orientation"),
   (0x0115, "SamplesPerPixel"), (0x0116, "RowsPerStrip"), (0x0117, "StripByteCounts"),
   (0x0118, "MinSampleValue"), (0x0119, "MaxSampleValue"), (0x011A, "XResolution"),
   (0x011B, "YResolution"), (0x011C, "PlanarConfiguration"), (0x011D, "PageName"),
   (0x0120, "FreeOffsets"), (0x0121, "FreeByteCounts"), (0x0122, "GrayResponseUnit"),
   (0x0123, "GrayResponseCurve"), (0x0124, "T4Options"), (0x0125, "T6Options"),
   (0x0128, "ResolutionUnit"), (0x0129, "PageNumber"), (0x012D, "TransferFunction"),
   (0x0131, "Software"), (0x0132, "DateTime"), (0x013B, "Artist"), (0x013C, "HostComputer"),
   (0x013D, "Predictor"), (0x013E, "WhitePoint"), (0x013F, "PrimaryChromaticities"),
   (0x0140, "ColorMap"), (0x0141, "HalftoneHints"), (0x0142, "TileWidth"),
   (0x0143, "TileLength"), (0x0144, "TileOffsets"), (0x0145, "TileByteCounts"),
   (0x014A, "SubIFDs"), (0x014C, "InkSet"), (0x014D, "InkNames"), (0x014E, "NumberOfInks"),
   (0x0150, "DotRange"), (0x0151, "TargetPrinter"), (0x0152, "ExtraSamples"),
   (0x0153, "SampleFormat"), (0x0154, "SMinSampleValue"), (0x0155, "SMaxSampleValue"),
   (0x0156, "TransferRange"), (0x0157, "ClipPath"), (0x0158, "XClipPathUnits"),
   (0x0159, "YClipPathUnits"), (0x015A, "Indexed"), (0x015B, "JPEGTables"),
   (0x015F, "OPIProxy"), (0x0200, "JPEGProc"), (0x0201, "JpegIFOffset"),
   (0x0202, "JpegIFByteCount"), (0x0203, "JpegRestartInterval"),
   (0x0205, "JpegLosslessPredictors"), (0x0206, "JpegPointTransforms"),
   (0x0207, "JpegQTables"), (0x0208, "JpegDCTables"), (0x0209, "JpegACTables"),
   (0x0211, "YCbCrCoefficients"), (0x0212, "YCbCrSubSampling"), (0x0213, "YCbCrPositioning"),
   (0x0214, "ReferenceBlackWhite"), (0x02BC, "XMLPacket"), (0x4746, "Rating"),
   (0x4749, "RatingPercent"), (0x8298, "Copyright"), (0x829A, "ExposureTime"),
   (0x829D, "FNumber"), (0x83BB, "IPTCNAA"), (0x8649, "ImageResources"),
   (0x8769, "ExifOffset"), (0x8773, "InterColorProfile"), (0x8822, "ExposureProgram"),
   (0x8825, "GPSInfo"), (0x8827, "ISOSpeedRatings"), (0x9000, "ExifVersion"),
   (0x9003, "DateTimeOriginal"), (0x9004, "DateTimeDigitized"), (0x927C, "MakerNote"),
   (0x9286, "UserComment"), (0x9C9B, "XPTitle"), (0x9C9C, "XPComment"), (0x9C9D, "XPAuthor"),
   (0x9C9E, "XPKeywords"), (0x9C9F, "XPSubject"), (0xA001, "ColorSpace"),
   (0xA002, "ExifImageWidth"), (0xA003, "ExifImageHeight")]

def nameOf (tag : Nat) : String :=
  match names.find? (fun p => p.1 = tag) with
  | some p => p.2
  | none => "EXIF:" ++ natText tag

def toTags (d : Directory) : Metadata.Tags :=
  d.map (fun p => (nameOf p.1, p.2.toJson (isSingle p.1)))

end MediaCatalog.Exif
