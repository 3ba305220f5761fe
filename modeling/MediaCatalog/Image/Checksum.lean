import MediaCatalog.Image.Bytes

namespace MediaCatalog.Checksum

def polynomial : UInt32 := 0xEDB88320

def shift (c : UInt32) : UInt32 := if c &&& 1 = 1 then (c >>> 1) ^^^ polynomial else c >>> 1

def feed (c : UInt32) (b : UInt8) : UInt32 :=
  shift (shift (shift (shift (shift (shift (shift (shift (c ^^^ b.toUInt32))))))))

def crc32 (b : Bytes) : Nat := ((b.foldl feed 0xFFFFFFFF) ^^^ 0xFFFFFFFF).toNat

end MediaCatalog.Checksum
