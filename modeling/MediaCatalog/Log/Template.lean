import MediaCatalog.Json.Conversion
import MediaCatalog.Log.Trace
import MediaCatalog.Log.Record

namespace MediaCatalog.Log

namespace Arg

def plainText : Arg → String
  | .text s => s
  | .int n => intText n
  | .failure f => f.message
  | .value v => v.text

def quoted : Arg → String
  | .text s => Text.quoted s
  | .int n => intText n
  | .failure f => f.cause.title ++ "(" ++ Text.quoted f.message ++ ")"
  | .value v => v.shown

def json? : Arg → Option Json
  | .text s => some (.str s)
  | .int n => some (.int n)
  | .failure _ => none
  | .value v => some v

end Arg

structure Directive where
  name : Option String := none
  flags : List Char := []
  width : Nat := 0
  precision : Option Nat := none
  kind : Char
  deriving Repr

def isFlag (c : Char) : Bool := ['-', '+', ' ', '#', '0'].contains c

def splitName (s : List Char) : Option (Option String × List Char) :=
  match s with
  | '(' :: rest =>
    match rest.span (· != ')') with
    | (name, _ :: more) => some (some (String.ofList name), more)
    | (_, []) => none
  | _ => some (none, s)

def splitPrecision (s : List Char) : Option Nat × List Char :=
  match s with
  | '.' :: rest =>
    let (digits, more) := rest.span Char.isDigit
    (some (Number.digitsValue digits), more)
  | _ => (none, s)

def splitDirective (s : List Char) : Option (Directive × List Char) := do
  let (name, s) ← splitName s
  let (flags, s) := s.span isFlag
  let (width, s) := s.span Char.isDigit
  let (precision, s) := splitPrecision s
  let s := match s with
    | c :: rest => if ['h', 'l', 'L'].contains c then rest else s
    | [] => s
  match s with
  | kind :: rest => some ({ name, flags, width := Number.digitsValue width, precision, kind }, rest)
  | [] => none

namespace Directive

def has (d : Directive) (flag : Char) : Bool := d.flags.contains flag

def pad (d : Directive) (body : List Char) : List Char :=
  let blanks := List.replicate (d.width - body.length) ' '
  if d.has '-' then body ++ blanks else blanks ++ body

def clip (d : Directive) (s : String) : List Char :=
  match d.precision with
  | some n => s.toList.take n
  | none => s.toList

def sign (d : Directive) (isNegative : Bool) : List Char :=
  if isNegative then ['-'] else if d.has '+' then ['+'] else if d.has ' ' then [' '] else []

/-- A number in its width: zeros go between the sign and the digits. -/
def number (d : Directive) (isNegative : Bool) (mark digits : List Char) : List Char :=
  let front := d.sign isNegative ++ mark
  if d.has '0' && !d.has '-' then
    front ++ List.replicate (d.width - front.length - digits.length) '0' ++ digits
  else d.pad (front ++ digits)

def whole (d : Directive) (base : Nat) (mark : String) (n : Int) : List Char :=
  let digits := Nat.toDigits base n.natAbs
  let zeros := List.replicate (d.precision.getD 0 - digits.length) '0'
  d.number (n < 0) (if d.has '#' then mark.toList else []) (zeros ++ digits)

/-- A point is kept on demand when no places follow it. -/
def pointed (d : Directive) (ds : List Char) : List Char :=
  if d.has '#' && !ds.contains '.' then ds ++ ['.'] else ds

/-- Zeros at the end count for nothing, unless they are kept on demand. -/
def shortened (d : Directive) (ds : List Char) : List Char :=
  if d.has '#' || !ds.contains '.' then d.pointed ds
  else ((ds.reverse.dropWhile (· == '0')).dropWhile (· == '.')).reverse

def mantissa : List Char → List Char
  | c :: c' :: ds => c :: '.' :: c' :: ds
  | ds => ds

def exponent (e : Int) : List Char := 'e' :: (Binary64.exponentText e).toList

def scientific (d : Directive) (num den : Nat) : List Char :=
  let (ds, e) := leadingDigits num den (d.precision.getD 6)
  d.pointed (mantissa ds) ++ exponent e

/-- As many digits in all as the precision says, with an exponent for large and for tiny numbers. -/
def general (d : Directive) (num den : Nat) : List Char :=
  let count := max 1 (d.precision.getD 6)
  let (ds, e) := leadingDigits num den (count - 1)
  if -4 ≤ e && e < count then
    d.shortened (fixedRatio false num den (count - 1 - e).toNat).toList
  else d.shortened (mantissa ds) ++ exponent e

def magnitude (d : Directive) (num den : Nat) : List Char :=
  match d.kind.toLower with
  | 'e' => d.scientific num den
  | 'g' => d.general num den
  | _ => d.pointed (fixedRatio false num den (d.precision.getD 6)).toList

def real (d : Directive) : Binary64 → List Char
  | .nan => d.number false [] "nan".toList
  | .inf neg => d.number neg [] "inf".toList
  | .finite neg m q =>
    let r := Binary64.ratio m q
    d.number neg [] (d.magnitude r.1 r.2)

end Directive

def upperDigits (s : List Char) : List Char := s.map Char.toUpper

def character? : Json → Option Char
  | .str s =>
    match s.toList with
    | [c] => some c
    | _ => none
  | v => do
    let n ← v.int?
    if 0 ≤ n && n < 0x110000 then some (Char.ofNat n.toNat) else none

/-- Characters beyond ASCII by their codes. -/
def plainChar (c : Char) : List Char := if c.toNat < 128 then [c] else Text.codeEscape c.toNat

def real? (a : Arg) : Option Binary64 := do
  match ← a.json? with
  | .str _ => none
  | v => v.toReal.toOption

def Directive.apply (d : Directive) (a : Arg) : Option (List Char) :=
  match d.kind with
  | 's' => some (d.pad (d.clip a.plainText))
  | 'r' => some (d.pad (d.clip a.quoted))
  | 'a' => some (d.pad (d.clip (String.ofList (a.quoted.toList.flatMap plainChar))))
  | 'd' | 'i' | 'u' => do
    match ← a.json? with
    | .float x => return d.whole 10 "" (← x.wholePart.toOption)
    | v => return d.whole 10 "" (← v.int?)
  | 'x' => do return d.whole 16 "0x" (← (← a.json?).int?)
  | 'X' => do return upperDigits (d.whole 16 "0x" (← (← a.json?).int?))
  | 'o' => do return d.whole 8 "0o" (← (← a.json?).int?)
  | 'e' | 'f' | 'g' => do return d.real (← real? a)
  | 'E' | 'F' | 'G' => do return upperDigits (d.real (← real? a))
  | 'c' => do return d.pad [← character? (← a.json?)]
  | _ => none

structure Supply where
  left : List Arg
  fields : Option (List (String × Json)) := none

namespace Supply

/-- A single object that is not empty gives its fields by name. -/
def ofArgs (args : List Arg) : Supply :=
  match args with
  | [.value (.obj (f :: fs))] => ⟨args, some (f :: fs)⟩
  | _ => ⟨args, none⟩

def take (s : Supply) (name : Option String) : Option (Arg × Supply) :=
  match name, s.left with
  | none, a :: rest => some (a, { s with left := rest })
  | none, [] => none
  | some name, _ => do return (.value (← field? name (← s.fields)), { s with left := [] })

/-- Objects may keep fields that nobody asked for. -/
def isSpent (s : Supply) : Bool := s.left.isEmpty || s.fields.isSome

end Supply

/-- The text of a template from here on; every directive is at least one character long. -/
def renderFrom : Nat → List Char → Supply → Option (List Char)
  | _, [], supply => if supply.isSpent then some [] else none
  | 0, _, _ => none
  | fuel + 1, '%' :: '%' :: s, supply => do return '%' :: (← renderFrom fuel s supply)
  | fuel + 1, c :: s, supply =>
    if c != '%' then do return c :: (← renderFrom fuel s supply)
    else do
      let (d, rest) ← splitDirective s
      let (a, supply) ← supply.take d.name
      return (← d.apply a) ++ (← renderFrom fuel rest supply)

/-- Without arguments a template is its own text. -/
def render (template : String) (args : List Arg) : Option String :=
  if args.isEmpty then some template
  else (renderFrom template.length template.toList (.ofArgs args)).map String.ofList

end MediaCatalog.Log
