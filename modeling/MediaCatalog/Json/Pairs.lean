import MediaCatalog.Json.Conversion

namespace MediaCatalog.Json

def notPairs : Failure := ⟨.type, "a list of pairs is needed", []⟩

/-- Numbers as keys are equal when their values are, whatever their types. -/
def sameKey : Json → Json → Bool
  | .str a, .str b => a == b
  | .null, .null => true
  | .float a, .float b => a.toRatio? == b.toRatio? && a.toRatio? != none || a == b && a != .nan
  | .float a, b => match b.int? with
    | some n => a.toInt? == some n
    | none => false
  | a, .float b => match a.int? with
    | some n => b.toInt? == some n
    | none => false
  | a, b => match a.int?, b.int? with
    | some m, some n => m == n
    | _, _ => false

def setKey (key value : Json) : List (Json × Json) → List (Json × Json)
  | [] => [(key, value)]
  | (k, v) :: rest =>
    if sameKey k key then (k, value) :: rest else (k, v) :: setKey key value rest

def isKey : Json → Bool
  | .arr _ | .obj _ => false
  | _ => true

def addPair (pairs : List (Json × Json)) (v : Json) : Except Failure (List (Json × Json)) :=
  match v with
  | .arr [k, x] => if isKey k then .ok (setKey k x pairs) else .error notPairs
  | .str s =>
    match s.toList with
    | [k, x] => .ok (setKey (.str (String.singleton k)) (.str (String.singleton x)) pairs)
    | _ => .error (.ofValue "a pair has two elements")
  | .obj [(k, _), (x, _)] => .ok (setKey (.str k) (.str x) pairs)
  | .arr _ | .obj _ => .error (.ofValue "a pair has two elements")
  | _ => .error notPairs

/-- The pairs of an object, or of a list of pairs; texts of two characters count as pairs. -/
def pairs (v : Json) : Except Failure (List (Json × Json)) :=
  match v with
  | .obj fields => .ok (fields.map fun f => (.str f.1, f.2))
  | .arr xs => xs.foldlM addPair []
  | .str "" => .ok []
  | .str _ => .error (.ofValue "a pair has two elements")
  | _ => .error notPairs

end MediaCatalog.Json
