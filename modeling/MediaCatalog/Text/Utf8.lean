namespace MediaCatalog.Text.Utf8

def encodeChar (c : Char) : List UInt8 :=
  let n := c.toNat
  if n < 0x80 then [n.toUInt8]
  else if n < 0x800 then [(0xC0 + n / 64).toUInt8, (0x80 + n % 64).toUInt8]
  else if n < 0x10000 then
    [(0xE0 + n / 4096).toUInt8, (0x80 + n / 64 % 64).toUInt8, (0x80 + n % 64).toUInt8]
  else
    [(0xF0 + n / 262144).toUInt8, (0x80 + n / 4096 % 64).toUInt8, (0x80 + n / 64 % 64).toUInt8,
      (0x80 + n % 64).toUInt8]

def encode (s : List Char) : List UInt8 := s.flatMap encodeChar

def isTail (b : Nat) : Bool := 0x80 ≤ b && b < 0xC0

/-- The lowest and highest second byte that may follow a lead byte of three or four bytes. -/
def secondRange (lead : Nat) : Nat × Nat :=
  if lead = 0xE0 then (0xA0, 0xBF) else if lead = 0xED then (0x80, 0x9F)
  else if lead = 0xF0 then (0x90, 0xBF) else if lead = 0xF4 then (0x80, 0x8F) else (0x80, 0xBF)

def isSecond (lead b : Nat) : Bool := (secondRange lead).1 ≤ b && b ≤ (secondRange lead).2

/-- The scalar value at the front, or none for an ill-formed part, with the number of bytes that
follow the first one and belong to it. -/
def front (lead : Nat) (rest : List Nat) : Option Char × Nat :=
  if lead < 0x80 then (some (Char.ofNat lead), 0)
  else if lead < 0xC2 then (none, 0)
  else if lead < 0xE0 then
    match rest with
    | b :: _ =>
      if isTail b then (some (Char.ofNat ((lead - 0xC0) * 64 + (b - 0x80))), 1) else (none, 0)
    | [] => (none, 0)
  else if lead < 0xF0 then
    match rest with
    | b :: c :: _ =>
      if isSecond lead b then
        if isTail c then
          (some (Char.ofNat ((lead - 0xE0) * 4096 + (b - 0x80) * 64 + (c - 0x80))), 2)
        else (none, 1)
      else (none, 0)
    | [b] => (none, if isSecond lead b then 1 else 0)
    | [] => (none, 0)
  else if lead < 0xF5 then
    match rest with
    | b :: c :: d :: _ =>
      if isSecond lead b then
        if isTail c then
          if isTail d then
            (some (Char.ofNat
              ((lead - 0xF0) * 262144 + (b - 0x80) * 4096 + (c - 0x80) * 64 + (d - 0x80))), 3)
          else (none, 2)
        else (none, 1)
      else (none, 0)
    | [b, c] => (none, if isSecond lead b then (if isTail c then 2 else 1) else 0)
    | [b] => (none, if isSecond lead b then 1 else 0)
    | [] => (none, 0)
  else (none, 0)

def parts : List UInt8 → List (Option Char)
  | [] => []
  | b :: rest =>
    let f := front b.toNat ((rest.take 3).map UInt8.toNat)
    f.1 :: parts (rest.drop f.2)
termination_by l => l.length
decreasing_by simp only [List.length_drop, List.length_cons]; omega

def decode? (l : List UInt8) : Option (List Char) := (parts l).mapM id

def decode (l : List UInt8) : List Char := (parts l).map (·.getD '\uFFFD')

def ofString (s : String) : List UInt8 := encode s.toList

def toString (l : List UInt8) : String := String.ofList (decode l)

def size (s : String) : Nat := (ofString s).length

end MediaCatalog.Text.Utf8
