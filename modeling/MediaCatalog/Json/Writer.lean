import MediaCatalog.Json

namespace MediaCatalog.Json

def escapeChar (c : Char) : List Char :=
  if c = '"' then ['\\', '"'] else if c = '\\' then ['\\', '\\']
  else if c = '\n' then ['\\', 'n'] else if c = '\r' then ['\\', 'r']
  else if c = '\t' then ['\\', 't'] else if c.toNat = 8 then ['\\', 'b']
  else if c.toNat = 12 then ['\\', 'f']
  else if c.toNat < 32 then '\\' :: 'u' :: Text.hexText 4 c.toNat else [c]

def writeString (s : String) : String :=
  "\"" ++ String.ofList (s.toList.flatMap escapeChar) ++ "\""

def writeFloat : Binary64 → String
  | .nan => "NaN"
  | .inf neg => if neg then "-Infinity" else "Infinity"
  | x => x.text

mutual

/-- Whether every number is finite. Others have words here, but none that every reader knows. -/
def isStandard : Json → Bool
  | .float x => x.isFinite
  | .arr xs => allStandard xs
  | .obj fields => allFieldsStandard fields
  | _ => true

def allStandard : List Json → Bool
  | [] => true
  | x :: xs => isStandard x && allStandard xs

def allFieldsStandard : List (String × Json) → Bool
  | [] => true
  | (_, v) :: rest => isStandard v && allFieldsStandard rest

end

mutual

def write : Json → String
  | .null => "null"
  | .bool b => if b then "true" else "false"
  | .int n => intText n
  | .float x => writeFloat x
  | .str s => writeString s
  | .arr xs => "[" ++ writeAll xs ++ "]"
  | .obj fields => "\x7b" ++ writeFields fields ++ "\x7d"

def writeAll : List Json → String
  | [] => ""
  | [x] => write x
  | x :: xs => write x ++ ", " ++ writeAll xs

def writeFields : List (String × Json) → String
  | [] => ""
  | [(k, v)] => writeString k ++ ": " ++ write v
  | (k, v) :: rest => writeString k ++ ": " ++ write v ++ ", " ++ writeFields rest

end

end MediaCatalog.Json
