namespace MediaCatalog

abbrev Bytes := List UInt8

namespace Bytes

def bigEndian (b : Bytes) : Nat := b.foldl (fun n x => n * 256 + x.toNat) 0

def littleEndian (b : Bytes) : Nat := bigEndian b.reverse

def slice? (b : Bytes) (start count : Nat) : Option Bytes :=
  let s := (b.drop start).take count
  if s.length = count then some s else none

def big? (b : Bytes) (start count : Nat) : Option Nat := (slice? b start count).map bigEndian

def little? (b : Bytes) (start count : Nat) : Option Nat := (slice? b start count).map littleEndian

def startsWith (b : Bytes) (mark : Bytes) : Bool := mark.isPrefixOf b

def ascii (s : String) : Bytes := s.toList.map (fun c => c.toNat.toUInt8)

def signedOf (bits n : Nat) : Int :=
  if n < Nat.pow 2 (bits - 1) then n else (n : Int) - Nat.pow 2 bits

end Bytes

end MediaCatalog
