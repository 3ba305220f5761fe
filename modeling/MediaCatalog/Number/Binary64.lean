namespace MediaCatalog

/-- A finite number is `m * 2 ^ q` with `m < 2 ^ 53` and `-1074 ≤ q ≤ 971`, where `q = -1074` or
`2 ^ 52 ≤ m`. -/
inductive Binary64 where
  | nan
  | inf (neg : Bool)
  | finite (neg : Bool) (m : Nat) (q : Int)
  deriving DecidableEq, Repr, Inhabited

/-- The quotient rounded to the nearest whole number, a tie going to the even one. -/
def roundDiv (num den : Nat) : Nat :=
  let d := num / den
  let r := num % den
  if 2 * r < den then d else if den < 2 * r then d + 1 else if d % 2 = 0 then d else d + 1

namespace Binary64

def zero : Binary64 := .finite false 0 (-1074)

/-- The exponent of the greatest power of two that does not exceed `num / den`. -/
def log2Ratio (num den : Nat) : Int :=
  let k : Int := (Nat.log2 num : Int) - (Nat.log2 den : Int)
  let fits := if 0 ≤ k then den * Nat.pow 2 k.toNat ≤ num else den ≤ num * Nat.pow 2 (-k).toNat
  if fits then k else k - 1

def scaledDiv (num den : Nat) (q : Int) : Nat :=
  if 0 ≤ q then roundDiv num (den * Nat.pow 2 q.toNat)
  else roundDiv (num * Nat.pow 2 (-q).toNat) den

def ofRatio (neg : Bool) (num den : Nat) : Binary64 :=
  if num = 0 || den = 0 then .finite neg 0 (-1074)
  else
    let q := max (log2Ratio num den - 52) (-1074)
    let m := scaledDiv num den q
    let (m, q) := if m = 0x20000000000000 then (0x10000000000000, q + 1) else (m, q)
    if 971 < q then .inf neg else .finite neg m q

def ofInt (n : Int) : Binary64 := ofRatio (n < 0) n.natAbs 1

def ofNat (n : Nat) : Binary64 := ofRatio false n 1

def ratio (m : Nat) (q : Int) : Nat × Nat :=
  if 0 ≤ q then (m * Nat.pow 2 q.toNat, 1) else (m, Nat.pow 2 (-q).toNat)

def signed (neg : Bool) (n : Nat) : Int := if neg then -(n : Int) else n

def toRatio? : Binary64 → Option (Int × Nat)
  | .finite neg m q => let r := ratio m q; some (signed neg r.1, r.2)
  | _ => none

def isFinite : Binary64 → Bool
  | .finite .. => true
  | _ => false

def trunc? : Binary64 → Option Int
  | .finite neg m q => let r := ratio m q; some (signed neg (r.1 / r.2))
  | _ => none

def floor? (x : Binary64) : Option Int := x.toRatio?.map (fun r => Int.fdiv r.1 r.2)

def toInt? (x : Binary64) : Option Int :=
  match x with
  | .finite neg m q =>
    let r := ratio m q
    if r.1 % r.2 = 0 then some (signed neg (r.1 / r.2)) else none
  | _ => none

def lt : Binary64 → Binary64 → Bool
  | .nan, _ => false
  | _, .nan => false
  | .inf a, .inf b => a && !b
  | .inf a, .finite .. => a
  | .finite .., .inf b => !b
  | .finite a m q, .finite b n p =>
    let x := ratio m q
    let y := ratio n p
    signed a x.1 * y.2 < signed b y.1 * x.2

def isPositive (x : Binary64) : Bool := lt zero x

def isZero : Binary64 → Bool
  | .finite _ m _ => m == 0
  | _ => false

def ofSigned (num : Int) (den : Nat) : Binary64 := ofRatio (num < 0) num.natAbs den

def neg : Binary64 → Binary64
  | .nan => .nan
  | .inf a => .inf (!a)
  | .finite a m q => .finite (!a) m q

def add : Binary64 → Binary64 → Binary64
  | .finite a m q, .finite b n p =>
    let x := ratio m q
    let y := ratio n p
    let s := signed a x.1 * y.2 + signed b y.1 * x.2
    if s = 0 then .finite (a && b) 0 (-1074) else ofSigned s (x.2 * y.2)
  | .nan, _ => .nan
  | _, .nan => .nan
  | .inf a, .inf b => if a = b then .inf a else .nan
  | .inf a, _ => .inf a
  | _, .inf b => .inf b

def mul : Binary64 → Binary64 → Binary64
  | .finite a m q, .finite b n p =>
    let x := ratio m q
    let y := ratio n p
    ofRatio (a != b) (x.1 * y.1) (x.2 * y.2)
  | .nan, _ => .nan
  | _, .nan => .nan
  | .inf a, .inf b => .inf (a != b)
  | .inf a, .finite b m _ => if m = 0 then .nan else .inf (a != b)
  | .finite a m _, .inf b => if m = 0 then .nan else .inf (a != b)

def ceil? (x : Binary64) : Option Int := x.toRatio?.map (fun r => -Int.fdiv (-r.1) r.2)

/-- What is left of a number after taking away a multiple of `n`, from zero up to `n`. The left-over
of a negative number is rounded, and may come to `n` itself. -/
def modulo (n : Nat) : Binary64 → Binary64
  | .finite neg m q =>
    let r := ratio m q
    let rest := ofRatio neg (r.1 % (n * r.2)) r.2
    if r.1 % (n * r.2) = 0 then zero else if neg then rest.add (ofNat n) else rest
  | _ => .nan

/-- Rounded to a number of decimal places, a tie going to the even last digit. -/
def roundPlaces (places : Nat) : Binary64 → Binary64
  | .finite neg m q =>
    let r := ratio m q
    ofRatio neg (roundDiv (r.1 * Nat.pow 10 places) r.2) (Nat.pow 10 places)
  | x => x

def halved (k : Nat) : Binary64 → Binary64
  | .finite a m q => let r := ratio m q; ofRatio a r.1 (r.2 * Nat.pow 2 k)
  | x => x

def toBits : Binary64 → Nat
  | .nan => 0x7FF8000000000000
  | .inf neg => (if neg then 0x8000000000000000 else 0) + 0x7FF0000000000000
  | .finite neg m q =>
    (if neg then 0x8000000000000000 else 0) +
      if m < 0x10000000000000 then m
      else (q + 1075).toNat * 0x10000000000000 + (m - 0x10000000000000)

def ofBits (bits : Nat) : Binary64 :=
  let neg : Bool := bits / 0x8000000000000000 % 2 == 1
  let e : Nat := bits / 0x10000000000000 % 2048
  let f : Nat := bits % 0x10000000000000
  if e = 2047 then (if f = 0 then .inf neg else .nan)
  else if e = 0 then .finite neg f (-1074)
  else .finite neg (f + 0x10000000000000) ((e : Int) - 1075)

def toFloat (x : Binary64) : Float := Float.ofBits x.toBits.toUInt64

def ofFloat (x : Float) : Binary64 := ofBits x.toBits.toNat

end Binary64

end MediaCatalog
