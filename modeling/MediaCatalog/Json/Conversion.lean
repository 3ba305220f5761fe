import MediaCatalog.Failure
import MediaCatalog.Json
import MediaCatalog.Number.Reader

namespace MediaCatalog

def Number.badInt (s : String) : Failure :=
  .ofValue ("invalid literal for int() with base 10: " ++ Text.quoted s)

def Number.ofBytes? (bs : List UInt8) : Option Int :=
  if bs.all (· < 0x80) then int? (String.ofList (bs.map fun b => Char.ofNat b.toNat)) else none

def Number.badBytes (bs : List UInt8) : Failure :=
  .ofValue ("invalid literal for int() with base 10: " ++ Text.quotedBytes bs)

def Binary64.wholePart (x : Binary64) : Except Failure Int :=
  match x with
  | .nan => .error (.ofValue "cannot convert float NaN to integer")
  | .inf _ => .error ⟨.overflow, "cannot convert float infinity to integer", []⟩
  | x => .ok ((x.trunc?).getD 0)

namespace Json

def notNumeric : Failure := ⟨.type, "a text or a number is needed", []⟩

def toInt : Json → Except Failure Int
  | .int n => .ok n
  | .bool b => .ok (if b then 1 else 0)
  | .float x => x.wholePart
  | .str s =>
    match Number.int? s with
    | some n => .ok n
    | none => .error (Number.badInt s)
  | _ => .error notNumeric

def toReal : Json → Except Failure Binary64
  | .int n =>
    match Binary64.ofInt n with
    | .inf _ => .error ⟨.overflow, "int too large to convert to float", []⟩
    | x => .ok x
  | .bool b => .ok (Binary64.ofInt (if b then 1 else 0))
  | .float x => .ok x
  | .str s =>
    match Number.float? s with
    | some x => .ok x
    | none => .error (.ofValue ("could not convert string to float: " ++ Text.quoted s))
  | _ => .error notNumeric

/-- The elements of a list, the characters of a text, the names of an object. -/
def sequence : Json → Except Failure (List Json)
  | .arr xs => .ok xs
  | .str s => .ok (s.toList.map fun c => .str (String.singleton c))
  | .obj fields => .ok (fields.map fun p => .str p.1)
  | _ => .error ⟨.type, "a sequence is needed", []⟩

end Json

end MediaCatalog
