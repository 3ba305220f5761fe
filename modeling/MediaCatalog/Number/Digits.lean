import MediaCatalog.Number.Binary64

namespace MediaCatalog

def natText (n : Nat) : String := String.ofList (Nat.toDigits 10 n)

def intText (n : Int) : String := if n < 0 then "-" ++ natText n.natAbs else natText n.natAbs

namespace Binary64

/-- Twice the distance data of the interval that rounds to `m * 2 ^ q`, as four times the bounds:
the lower and the upper end in units of `2 ^ (q - 2)`. -/
def interval (m : Nat) (q : Int) : Nat × Nat :=
  if m = 0x10000000000000 && q != -1074 then (4 * m - 1, 4 * m + 2) else (4 * m - 2, 4 * m + 2)

/-- Whether `d * 10 ^ s` rounds to `m * 2 ^ q`; the ends belong to an even coefficient. -/
def roundsTo (m : Nat) (q : Int) (d : Nat) (s : Int) : Bool :=
  let u := ratio 1 (q - 2)
  let t := if 0 ≤ s then (Nat.pow 10 s.toNat, 1) else (1, Nat.pow 10 (-s).toNat)
  let lhs := d * t.1 * u.2
  let lo := (interval m q).1 * u.1 * t.2
  let hi := (interval m q).2 * u.1 * t.2
  if m % 2 = 0 then lo ≤ lhs && lhs ≤ hi else lo < lhs && lhs < hi

/-- The exponent of the greatest power of ten that does not exceed `num / den`, from a guess. -/
def log10Ratio (num den : Nat) : Int :=
  let guess : Int := (log2Ratio num den) * 30103 / 100000
  let fits (k : Int) : Bool :=
    if 0 ≤ k then den * Nat.pow 10 k.toNat ≤ num else den ≤ num * Nat.pow 10 (-k).toNat
  if fits (guess + 1) then guess + 1 else if fits guess then guess else guess - 1

/-- The better of the two neighbours on the grid of `10 ^ s`, if one rounds back. -/
def gridPoint? (m : Nat) (q : Int) (s : Int) : Option Nat :=
  let v := ratio m q
  let (num, den) :=
    if 0 ≤ s then (v.1, v.2 * Nat.pow 10 s.toNat) else (v.1 * Nat.pow 10 (-s).toNat, v.2)
  let d := num / den
  match roundsTo m q d s, roundsTo m q (d + 1) s with
  | true, true => some (roundDiv num den)
  | true, false => some d
  | false, true => some (d + 1)
  | false, false => none

def shortestFrom (m : Nat) (q : Int) (e : Int) : Nat → Nat × Int
  | 0 => (0, 0)
  | n + 1 =>
    let s := e - (16 - n : Int)
    match gridPoint? m q s with
    | some d => (d, s)
    | none => shortestFrom m q e n

/-- The digits and the power of ten of the shortest decimal that reads back. -/
def shortest (m : Nat) (q : Int) : Nat × Int :=
  let v := ratio m q
  shortestFrom m q (log10Ratio v.1 v.2) 17

def stripZeros (ds : List Char) : List Char := (ds.reverse.dropWhile (· == '0')).reverse

def exponentText (e : Int) : String :=
  let ds := natText e.natAbs
  (if e < 0 then "-" else "+") ++ (if ds.length < 2 then "0" ++ ds else ds)

/-- Positional from `0.0001` up to sixteen whole digits, with an exponent beyond. -/
def layout (ds : List Char) (point : Int) : String :=
  let n : Int := ds.length
  if -4 < point && point ≤ 16 then
    if point ≤ 0 then "0." ++ String.ofList (List.replicate (-point).toNat '0' ++ ds)
    else if n ≤ point then String.ofList (ds ++ List.replicate (point - n).toNat '0') ++ ".0"
    else String.ofList (ds.take point.toNat) ++ "." ++ String.ofList (ds.drop point.toNat)
  else
    let frac := ds.drop 1
    String.ofList (ds.take 1) ++ (if frac = [] then "" else "." ++ String.ofList frac) ++ "e" ++
      exponentText (point - 1)

def text : Binary64 → String
  | .nan => "nan"
  | .inf neg => if neg then "-inf" else "inf"
  | .finite neg m q =>
    (if neg then "-" else "") ++
      if m = 0 then "0.0"
      else
        let (d, s) := shortest m q
        let ds := Nat.toDigits 10 d
        layout (stripZeros ds) (ds.length + s)

end Binary64

/-- The ratio with a fixed number of places, a tie going to the even last digit. -/
def fixedRatio (neg : Bool) (num den places : Nat) : String :=
  let ds := Nat.toDigits 10 (roundDiv (num * Nat.pow 10 places) den)
  let ds := List.replicate (places + 1 - ds.length) '0' ++ ds
  let whole := String.ofList (ds.take (ds.length - places))
  (if neg then "-" else "") ++ whole ++
    if places = 0 then "" else "." ++ String.ofList (ds.drop (ds.length - places))

/-- The first digits of a ratio, `places` of them behind the very first one, and the power of ten of
that one. A tie goes to the even last digit. -/
def leadingDigits (num den places : Nat) : List Char × Int :=
  if num = 0 then (List.replicate (places + 1) '0', 0)
  else
    let e := Binary64.log10Ratio num den
    let s := e - (places : Int)
    let n := if 0 ≤ s then roundDiv num (den * Nat.pow 10 s.toNat)
      else roundDiv (num * Nat.pow 10 (-s).toNat) den
    let ds := Nat.toDigits 10 n
    (ds.take (places + 1), if ds.length = places + 1 then e else e + 1)

def Binary64.fixed (places : Nat) : Binary64 → String
  | .nan => "nan"
  | .inf neg => if neg then "-inf" else "inf"
  | .finite neg m q => let r := ratio m q; fixedRatio neg r.1 r.2 places

end MediaCatalog
