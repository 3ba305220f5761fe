import MediaCatalog.Text.Printable

namespace MediaCatalog.Text

def hexText (width n : Nat) : List Char :=
  let ds := Nat.toDigits 16 n
  List.replicate (width - ds.length) '0' ++ ds

def codeEscape (n : Nat) : List Char :=
  if n < 0x100 then '\\' :: 'x' :: hexText 2 n
  else if n < 0x10000 then '\\' :: 'u' :: hexText 4 n
  else '\\' :: 'U' :: hexText 8 n

def quoteFor (s : List Char) : Char :=
  if s.contains '\'' && !s.contains '"' then '"' else '\''

def escapeIn (quote c : Char) : List Char :=
  if c = quote || c = '\\' then ['\\', c]
  else if c = '\n' then ['\\', 'n'] else if c = '\r' then ['\\', 'r']
  else if c = '\t' then ['\\', 't']
  else if isPrintable c then [c] else codeEscape c.toNat

def quotedChars (s : List Char) : List Char :=
  let q := quoteFor s
  q :: s.flatMap (escapeIn q) ++ [q]

def quoted (s : String) : String := String.ofList (quotedChars s.toList)

/-- Bytes are quoted after the letter `b`; those beyond ASCII are escaped. -/
def quotedBytes (bs : List UInt8) : String :=
  let cs := bs.map (fun b => Char.ofNat b.toNat)
  let q := quoteFor cs
  let esc (c : Char) := if c.toNat < 0x7F then escapeIn q c else codeEscape c.toNat
  String.ofList ('b' :: q :: cs.flatMap esc ++ [q])

end MediaCatalog.Text
