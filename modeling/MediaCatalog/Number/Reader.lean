import MediaCatalog.Number.Digits
import MediaCatalog.Text.Blank
import MediaCatalog.Text.Digit

namespace MediaCatalog.Number

def maxDigits : Nat := 4300

/-- The text with digits of all scripts in their ASCII form and without surrounding blanks. -/
def plain (s : List Char) : List Char :=
  (Text.trim Text.isNumberBlank s).map fun c =>
    match Text.decimalValue? c with
    | some d => Char.ofNat (48 + d)
    | none => c

/-- Drops underscores that stand between two digits; none for any other underscore. -/
def joinGroups : Bool → List Char → Option (List Char)
  | _, [] => some []
  | afterDigit, '_' :: s =>
    match s with
    | c :: _ => if afterDigit && c.isDigit then joinGroups false s else none
    | [] => none
  | _, c :: s => (joinGroups c.isDigit s).map (c :: ·)

def digitsValue (s : List Char) : Nat := s.foldl (fun n c => 10 * n + (c.toNat - 48)) 0

def splitSign : List Char → Bool × List Char
  | '-' :: s => (true, s)
  | '+' :: s => (false, s)
  | s => (false, s)

def int? (s : String) : Option Int := do
  let (neg, ds) := splitSign (plain s.toList)
  let ds ← joinGroups false ds
  if ds != [] && ds.all Char.isDigit && ds.length ≤ maxDigits then
    some (Binary64.signed neg (digitsValue ds))
  else none

def ofDecimal (neg : Bool) (digits : Nat) (exp : Int) : Binary64 :=
  let size : Int := (Nat.toDigits 10 digits).length + exp
  if digits = 0 then .finite neg 0 (-1074)
  else if 400 < size then .inf neg
  else if size < -400 then .finite neg 0 (-1074)
  else if 0 ≤ exp then Binary64.ofRatio neg (digits * Nat.pow 10 exp.toNat) 1
  else Binary64.ofRatio neg digits (Nat.pow 10 (-exp).toNat)

def decimal? (neg : Bool) (s : List Char) : Option Binary64 :=
  let (whole, rest) := s.span Char.isDigit
  let (frac, rest) := match rest with
    | '.' :: r => r.span Char.isDigit
    | _ => ([], rest)
  if whole = [] && frac = [] then none
  else
    let value (e : Int) := ofDecimal neg (digitsValue (whole ++ frac)) (e - frac.length)
    match rest with
    | [] => some (value 0)
    | c :: r =>
      let (eneg, ds) := splitSign r
      if (c = 'e' || c = 'E') && ds != [] && ds.all Char.isDigit then
        some (value (Binary64.signed eneg (digitsValue ds)))
      else none

def float? (s : String) : Option Binary64 := do
  let (neg, rest) := splitSign (plain s.toList)
  let word := String.ofList (rest.map Char.toLower)
  if word = "inf" || word = "infinity" then some (.inf neg)
  else if word = "nan" then some .nan
  else decimal? neg (← joinGroups false rest)

end MediaCatalog.Number
