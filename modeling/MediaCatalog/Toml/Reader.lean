import MediaCatalog.Failure
import MediaCatalog.Text.Utf8
import MediaCatalog.Toml.Scalar

namespace MediaCatalog.Toml

def isBare (c : Char) : Bool := c.isAlphanum || c = '-' || c = '_'

def namePart (s : List Char) : Except Fault (String × List Char) :=
  match s with
  | c :: _ =>
    if isBare c then .ok (String.ofList (s.takeWhile isBare), s.dropWhile isBare)
    else lineText s
  | [] => malformed

def nameFrom : Nat → List Char → Except Fault (List String × List Char)
  | 0, _ => malformed
  | fuel + 1, s => do
    let (part, s) ← namePart s
    match skipGap s with
    | '.' :: s =>
      let (parts, s) ← nameFrom fuel (skipGap s)
      return (part :: parts, s)
    | s => return ([part], s)

def name (s : List Char) : Except Fault (List String × List Char) := nameFrom (s.length + 1) s

/-- Goes over a comment, which ends before the newline. -/
def skipComment (s : List Char) : Except Fault (List Char) :=
  match s with
  | '#' :: s =>
    if (s.takeWhile (· != '\n')).any (isForbidden false) then .error .malformed
    else .ok (s.dropWhile (· != '\n'))
  | s => .ok s

def skipLinesFrom : Nat → List Char → Except Fault (List Char)
  | 0, s => .ok s
  | fuel + 1, s =>
    match s.dropWhile isLineGap with
    | '#' :: s => do skipLinesFrom fuel (← skipComment ('#' :: s))
    | s => .ok s

def skipLines (s : List Char) : Except Fault (List Char) := skipLinesFrom (s.length + 1) s

def word? (w : String) (s : List Char) : Option (List Char) :=
  if w.toList.isPrefixOf s then some (s.drop w.length) else none

def plainValue (s : List Char) : Except Fault (Json × List Char) :=
  match s with
  | '"' :: _ | '\'' :: _ => do
    let (t, rest) ← text s
    return (.str t, rest)
  | _ =>
    match word? "true" s, word? "false" s with
    | some rest, _ => .ok (.bool true, rest)
    | _, some rest => .ok (.bool false, rest)
    | none, none => (moment? s).getD (number s)

mutual

def value : Nat → List Char → Except Fault (Json × List Char)
  | 0, _ => malformed
  | fuel + 1, '[' :: s => do elements fuel [] (← skipLines s)
  | fuel + 1, '\x7b' :: s =>
    match skipGap s with
    | '\x7d' :: rest => .ok (.obj [], rest)
    | s => members fuel [] s
  | _ + 1, s => plainValue s

def elements : Nat → List Json → List Char → Except Fault (Json × List Char)
  | 0, _, _ => malformed
  | fuel + 1, done, s =>
    match s with
    | ']' :: rest => .ok (.arr done.reverse, rest)
    | s => do
      let (v, s) ← value fuel s
      match ← skipLines s with
      | ',' :: s => elements fuel (v :: done) (← skipLines s)
      | ']' :: rest => return (.arr (v :: done).reverse, rest)
      | _ => malformed

def members : Nat → Fields → List Char → Except Fault (Json × List Char)
  | 0, _, _ => malformed
  | fuel + 1, fields, s => do
    let (path, s) ← name s
    match s with
    | '=' :: s =>
      let (v, s) ← value fuel (skipGap s)
      let fields ← define 0 v path fields
      match skipGap s with
      | ',' :: s => members fuel fields (skipGap s)
      | '\x7d' :: rest => return (.obj (jsonFields fields), rest)
      | _ => malformed
    | _ => malformed

end

def anyValue (s : List Char) : Except Fault (Json × List Char) := value (2 * s.length + 2) s

structure Draft where
  fields : Fields := []
  header : List String := []
  block : Nat := 0

def closing (mark : List Char) (s : List Char) : Except Fault (List Char) :=
  if mark.isPrefixOf s then .ok (s.drop mark.length) else .error .malformed

def Draft.enter (d : Draft) (path : List String) (change : String → Change) :
    Except Fault Draft := do
  let fields ← within path.dropLast (change (path.getLastD "")) d.fields
  return ⟨fields, path, d.block + 1⟩

def Draft.define (d : Draft) (path : List String) (v : Json) : Except Fault Draft := do
  return { d with fields := ← within d.header (Toml.define d.block v path) d.fields }

def statement (d : Draft) (s : List Char) : Except Fault (Draft × List Char) :=
  match s with
  | '[' :: '[' :: s => do
    let (path, s) ← name (skipGap s)
    let d ← d.enter path another
    return (d, ← closing [']', ']'] s)
  | '[' :: s => do
    let (path, s) ← name (skipGap s)
    let d ← d.enter path head
    return (d, ← closing [']'] s)
  | s => do
    let (path, s) ← name s
    match s with
    | '=' :: s =>
      let (v, s) ← anyValue (skipGap s)
      return (← d.define path v, s)
    | _ => malformed

/-- Line by line: a statement or none, then perhaps a comment. -/
def statements : Nat → Draft → List Char → Except Fault Draft
  | 0, d, _ => .ok d
  | fuel + 1, d, s =>
    match skipGap s with
    | [] => .ok d
    | '\n' :: s => statements fuel d s
    | '#' :: s => do
      match ← skipComment ('#' :: s) with
      | _ :: s => statements fuel d s
      | [] => return d
    | s => do
      let (d, s) ← statement d s
      match ← skipComment (skipGap s) with
      | [] => return d
      | '\n' :: s => statements fuel d s
      | _ => .error .malformed

def plainNewlines : List Char → List Char
  | '\r' :: '\n' :: s => '\n' :: plainNewlines s
  | c :: s => c :: plainNewlines s
  | [] => []

def readChars (s : List Char) : Except Fault (List (String × Json)) := do
  let s := plainNewlines s
  return jsonFields (← statements (s.length + 1) {} s).fields

def Fault.failure : Fault → Failure
  | .malformed => ⟨.badToml, "Invalid statement", []⟩
  | .tooManyDigits => .ofValue "Exceeds the limit (4300 digits) for integer string conversion"

def notUtf8 : Failure := ⟨.encoding, "invalid start byte", []⟩

def read (bytes : List UInt8) : Except Failure (List (String × Json)) :=
  match Text.Utf8.decode? bytes with
  | none => .error notUtf8
  | some s =>
    match readChars s with
    | .ok fields => .ok fields
    | .error f => .error f.failure

end MediaCatalog.Toml
