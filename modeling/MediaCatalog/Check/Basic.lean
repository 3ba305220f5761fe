import MediaCatalog.Failure
import MediaCatalog.Json
import MediaCatalog.Number.Reader

namespace MediaCatalog

/-- All flaws of a record are collected, in the order of its fields. -/
inductive Check (α : Type) where
  | ok (a : α)
  | flawed (errors : List FieldError)

namespace Check

variable {α β : Type}

def map (f : α → β) : Check α → Check β
  | .ok a => .ok (f a)
  | .flawed es => .flawed es

def apply : Check (α → β) → Check α → Check β
  | .ok f, .ok a => .ok (f a)
  | .ok _, .flawed es => .flawed es
  | .flawed es, .ok _ => .flawed es
  | .flawed es, .flawed fs => .flawed (es ++ fs)

instance : Functor Check := ⟨map, fun a => map (fun _ => a)⟩

instance : Seq Check := ⟨fun f x => apply f (x ())⟩

def flaw (f : Flaw) : Check α := .flawed [⟨f, []⟩]

def under (step : Step) : Check α → Check α
  | .ok a => .ok a
  | .flawed es => .flawed (es.map fun e => { e with place := step :: e.place })

def toExcept : Check α → Except Failure α
  | .ok a => .ok a
  | .flawed es => .error (.ofFields es)

structure Mode where
  recordFlaw : Flaw

def Mode.direct : Mode := ⟨.recordType⟩

def Mode.request : Mode := ⟨.recordShape⟩

abbrev Reader (α : Type) := Json → Check α

def text : Reader String
  | .str s => .ok s
  | _ => flaw .textType

/-- Sign, digits with single underscores between them, and a fraction of zeros. -/
def wholeText? (s : String) : Option Int := do
  let cs := Text.trim Text.isNumberBlank s.toList
  let (neg, rest) := Number.splitSign cs
  let (whole, frac) := rest.span (· != '.')
  let fracOk := match frac with
    | [] => true
    | _ :: zeros => zeros != [] && zeros.all (· == '0')
  let ds ← Number.joinGroups false whole
  if fracOk && ds != [] && ds.all Char.isDigit then
    some (Binary64.signed neg (Number.digitsValue ds))
  else none

def int : Reader Int
  | .int n => .ok n
  | .bool b => .ok (if b then 1 else 0)
  | .float x =>
    if !x.isFinite then flaw .finite
    else match x.toInt? with
      | none => flaw .intFraction
      | some n => if n.natAbs < 0x8000000000000000 then .ok n else flaw .intSize
  | .str s =>
    if Number.maxDigits < s.length then flaw .intSize
    else match wholeText? s with
      | some n => .ok n
      | none => flaw .intText
  | _ => flaw .intType

def asciiDigitsOnly (s : String) : Bool := s.toList.all (fun c => c.toNat < 128 || Text.isBlank c)

def float : Reader Binary64
  | .float x => .ok x
  | .int n => .ok (Binary64.ofInt n)
  | .bool b => .ok (Binary64.ofInt (if b then 1 else 0))
  | .str s =>
    match if asciiDigitsOnly s then Number.float? s else none with
    | some x => .ok x
    | none => flaw .floatText
  | _ => flaw .floatType

def optional (read : Reader α) : Reader (Option α)
  | .null => .ok none
  | v => (read v).map some

def itemsFrom (read : Reader α) : Nat → List Json → Check (List α)
  | _, [] => .ok []
  | i, x :: xs => ((read x).under (.item i)).map List.cons |>.apply (itemsFrom read (i + 1) xs)

def list (read : Reader α) : Reader (List α)
  | .arr xs => itemsFrom read 0 xs
  | _ => flaw .listType

/-- A list of `n` elements. One that is too long is refused at once, one that is too short only if
its elements are fine. -/
def listOf (n : Nat) (read : Reader α) : Reader (List α)
  | .arr xs =>
    if n < xs.length then flaw .tooLong
    else match itemsFrom read 0 xs with
      | .ok ys => if ys.length < n then flaw .tooShort else .ok ys
      | bad => bad
  | _ => flaw .listType

def record (mode : Mode) (read : List (String × Json) → Check α) : Reader α
  | .obj fields => read fields
  | _ => flaw mode.recordFlaw

def required (name : String) (read : Reader α) (fields : List (String × Json)) : Check α :=
  match field? name fields with
  | some v => (read v).under (.field name)
  | none => (flaw .missing).under (.field name)

def withDefault (name : String) (a : α) (read : Reader α) (fields : List (String × Json)) :
    Check α :=
  match field? name fields with
  | some v => (read v).under (.field name)
  | none => .ok a

end Check

end MediaCatalog
