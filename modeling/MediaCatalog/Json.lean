import MediaCatalog.Number.Digits
import MediaCatalog.Text.Quoted

namespace MediaCatalog

inductive Json where
  | null
  | bool (b : Bool)
  | int (n : Int)
  | float (x : Binary64)
  | str (s : String)
  | arr (xs : List Json)
  | obj (fields : List (String × Json))
  deriving Inhabited, Repr

/-- Sets a value in an insertion-ordered list of pairs: a known name keeps its place. -/
def setField {α : Type} (name : String) (value : α) : List (String × α) → List (String × α)
  | [] => [(name, value)]
  | (k, v) :: rest =>
    if k = name then (k, value) :: rest else (k, v) :: setField name value rest

def field? {α : Type} (name : String) (fields : List (String × α)) : Option α :=
  (fields.find? (fun p => p.1 == name)).map (·.2)

namespace Json

def get? (name : String) : Json → Option Json
  | .obj fields => field? name fields
  | _ => none

def str? : Json → Option String
  | .str s => some s
  | _ => none

def int? : Json → Option Int
  | .int n => some n
  | .bool b => some (if b then 1 else 0)
  | _ => none

def arr? : Json → Option (List Json)
  | .arr xs => some xs
  | _ => none

/-- Whether the value counts as present: not null, false, zero or empty. -/
def isTruthy : Json → Bool
  | .null => false
  | .bool b => b
  | .int n => n != 0
  | .float x => !x.isZero
  | .str s => s != ""
  | .arr xs => !xs.isEmpty
  | .obj fields => !fields.isEmpty

mutual

def shown : Json → String
  | .null => "None"
  | .bool b => if b then "True" else "False"
  | .int n => intText n
  | .float x => x.text
  | .str s => Text.quoted s
  | .arr xs => "[" ++ shownAll xs ++ "]"
  | .obj fields => "\x7b" ++ shownFields fields ++ "\x7d"

def shownAll : List Json → String
  | [] => ""
  | [x] => shown x
  | x :: xs => shown x ++ ", " ++ shownAll xs

def shownFields : List (String × Json) → String
  | [] => ""
  | [(k, v)] => Text.quoted k ++ ": " ++ shown v
  | (k, v) :: rest => Text.quoted k ++ ": " ++ shown v ++ ", " ++ shownFields rest

end

def text : Json → String
  | .str s => s
  | v => shown v

end Json

end MediaCatalog
