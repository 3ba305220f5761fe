import MediaCatalog.Image.Raster
import MediaCatalog.Failure
import MediaCatalog.Number.Binary64
import MediaCatalog.Number.Reader

namespace MediaCatalog.Rotation

/-- The number of quarter turns, when the angle is exactly a multiple of a right angle. -/
def quarterTurns? (angle : Binary64) : Option Nat :=
  [0, 1, 2, 3].find? (fun n => angle = Binary64.ofNat (90 * n))

def quarters (n : Nat) (r : Raster) : Raster :=
  match n with
  | 1 => r.quarterTurn
  | 2 => r.halfTurn
  | 3 => r.threeQuarterTurn
  | _ => r

def degree : Binary64 := Number.ofDecimal false 17453292519943295 (-18)

/-- The linear part of a turn, rounded to fifteen places, and the shift of its origin. -/
structure Matrix where
  a : Binary64
  b : Binary64
  c : Binary64
  d : Binary64
  e : Binary64
  f : Binary64

def Matrix.transform (t : Matrix) (x y : Binary64) : Binary64 × Binary64 :=
  (((t.a.mul x).add (t.b.mul y)).add t.c, ((t.d.mul x).add (t.e.mul y)).add t.f)

def Matrix.linear (angle : Binary64) : Matrix :=
  let turned := (angle.mul degree).neg
  let cosine := Binary64.ofFloat turned.toFloat.cos
  let sine := Binary64.ofFloat turned.toFloat.sin
  { a := cosine.roundPlaces 15, b := sine.roundPlaces 15, c := Binary64.zero
    d := sine.neg.roundPlaces 15, e := cosine.roundPlaces 15, f := Binary64.zero }

def Matrix.around (angle : Binary64) (width height : Nat) : Matrix :=
  let t := linear angle
  let x := (Binary64.ofNat width).halved 1
  let y := (Binary64.ofNat height).halved 1
  let shift := t.transform x.neg y.neg
  { t with c := shift.1.add x, f := shift.2.add y }

def extent? (xs : List Binary64) : Option Nat := do
  let tops ← xs.mapM Binary64.ceil?
  let bottoms ← xs.mapM Binary64.floor?
  return ((← tops.max?) - (← bottoms.min?)).toNat

def corners (t : Matrix) (width height : Nat) : List (Binary64 × Binary64) :=
  let w := Binary64.ofNat width
  let h := Binary64.ofNat height
  [t.transform Binary64.zero Binary64.zero, t.transform w Binary64.zero, t.transform w h,
    t.transform Binary64.zero h]

def canvas? (angle : Binary64) (width height : Nat) : Option (Nat × Nat) := do
  let ps := corners (Matrix.around angle width height) width height
  return (← extent? (ps.map (·.1)), ← extent? (ps.map (·.2)))

def noAngle : Failure := .ofValue "cannot convert float NaN to integer"

/-- The rotated picture. The pixels of slanted ones are not computed. -/
def rotate (degrees : Binary64) (r : Raster) : Except Failure Raster :=
  let angle := degrees.modulo 360
  match quarterTurns? angle with
  | some n => .ok (quarters n r)
  | none =>
    match canvas? angle r.width r.height with
    | some size => .ok (Raster.blank size.1 size.2)
    | none => .error noAngle

end MediaCatalog.Rotation
