import MediaCatalog.Json.Conversion

namespace MediaCatalog.Metadata

abbrev Tags := List (String × Json)

/-- The whole number in a tag: a positive number without its fraction, or digits between blanks. A
failure means that the tag looked like a number and is none. -/
def wholeNumber (v : Json) : Option (Except Failure Int) :=
  match v with
  | .bool b => if b then some (.ok 1) else none
  | .int n => if 0 < n then some (.ok n) else none
  | .float x =>
    if x.isPositive then some x.wholePart else none
  | .str s =>
    let t := Text.strip s
    if Text.allDigits t then
      match Number.int? t with
      | some n => some (.ok n)
      | none => some (.error (Number.badInt t))
    else none
  | _ => none

def firstInt (tags : Tags) : List String → Except Failure (Option Int)
  | [] => .ok none
  | name :: rest =>
    match (field? name tags).bind wholeNumber with
    | some (.ok n) => .ok (some n)
    | some (.error f) => .error f
    | none => firstInt tags rest

def sizeNames : List String := ["System:FileSize", "File:FileSize", "Basic:Size"]

def widthNames : List String :=
  ["Track1:ImageWidth", "QuickTime:ImageWidth", "File:ImageWidth", "Basic:Width"]

def heightNames : List String :=
  ["Track1:ImageHeight", "QuickTime:ImageHeight", "File:ImageHeight", "Basic:Height"]

def byteSize (tags : Tags) : Except Failure (Option Int) := firstInt tags sizeNames

inductive Found where
  | json (v : Json)
  | bytes (b : List UInt8)
  | set (xs : List Json)
  | tuple (xs : List Json)
  | complex (re im : Int)

def dedupe (xs : List String) : List String :=
  (xs.foldl (fun acc x => if acc.contains x then acc else x :: acc) []).reverse

/-- Values that JSON has are kept, all others are written as text. -/
def Found.toJson : Found → Json
  | .json v => v
  | .tuple xs => .arr xs
  | .bytes b => .str (Text.quotedBytes b)
  | .set [] => .str "set()"
  | .set xs => .str ("\x7b" ++ ", ".intercalate (dedupe (xs.map Json.shown)) ++ "\x7d")
  | .complex re im => .str ("(" ++ intText re ++ (if im < 0 then "" else "+") ++ intText im ++ "j)")

end MediaCatalog.Metadata
