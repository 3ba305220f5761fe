import MediaCatalog.Text.Utf8

namespace MediaCatalog.Text.Wide

/-- The size of a unit and whether its highest byte comes first. -/
structure Form where
  size : Nat
  highFirst : Bool
  deriving DecidableEq, Repr

/-- The form that the zeros at the front tell. Without them, a text has units of one byte. -/
def form? (bytes : List Nat) : Option Form :=
  match bytes with
  | a :: b :: c :: d :: _ =>
    if a = 0 then some ⟨if b = 0 then 4 else 2, true⟩
    else if b = 0 then some ⟨if c = 0 && d = 0 then 4 else 2, false⟩
    else none
  | [a, b] => if a = 0 then some ⟨2, true⟩ else if b = 0 then some ⟨2, false⟩ else none
  | _ => none

def unit (f : Form) (bytes : List Nat) : Nat :=
  (if f.highFirst then bytes else bytes.reverse).foldl (fun n b => 256 * n + b) 0

def units? (f : Form) : Nat → List Nat → Option (List Nat)
  | _, [] => some []
  | 0, _ => none
  | fuel + 1, bytes =>
    if bytes.length < f.size then none
    else do return unit f (bytes.take f.size) :: (← units? f fuel (bytes.drop f.size))

def isHigh (n : Nat) : Bool := 0xD800 ≤ n && n < 0xDC00

def isLow (n : Nat) : Bool := 0xDC00 ≤ n && n < 0xE000

/-- A surrogate that stands alone is read as a replacement character. -/
def single (n : Nat) : Char := if isHigh n || isLow n then '\uFFFD' else Char.ofNat n

def joinPairs : List Nat → List Char
  | a :: b :: rest =>
    if isHigh a && isLow b then
      Char.ofNat (0x10000 + (a - 0xD800) * 1024 + (b - 0xDC00)) :: joinPairs rest
    else single a :: joinPairs (b :: rest)
  | [a] => [single a]
  | [] => []

def decode? (f : Form) (bytes : List Nat) : Option (List Char) := do
  let units ← units? f bytes.length bytes
  if f.size = 2 then return joinPairs units
  else if units.all (· < 0x110000) then return units.map single
  else none

end MediaCatalog.Text.Wide
