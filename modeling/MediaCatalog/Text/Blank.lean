import MediaCatalog.Text.Ranges

namespace MediaCatalog.Text

def blankRanges : Ranges :=
  [(0x9, 0xD), (0x1C, 0x20), (0x85, 0x85), (0xA0, 0xA0), (0x1680, 0x1680), (0x2000, 0x200A),
   (0x2028, 0x2029), (0x202F, 0x202F), (0x205F, 0x205F), (0x3000, 0x3000)]

def isBlank (c : Char) : Bool := blankRanges.has c.toNat

def isSeparator (c : Char) : Bool := 0x1C ≤ c.toNat && c.toNat ≤ 0x1F

/-- Number readers do not count the four information separators. -/
def isNumberBlank (c : Char) : Bool := isBlank c && !isSeparator c

def trimLeft (isOut : Char → Bool) (s : List Char) : List Char := s.dropWhile isOut

def trimRight (isOut : Char → Bool) (s : List Char) : List Char :=
  (s.reverse.dropWhile isOut).reverse

def trim (isOut : Char → Bool) (s : List Char) : List Char := trimRight isOut (trimLeft isOut s)

def strip (s : String) : String := String.ofList (trim isBlank s.toList)

def wordsFrom : List Char → List Char → List (List Char)
  | acc, [] => if acc = [] then [] else [acc.reverse]
  | acc, c :: s =>
    if isBlank c then (if acc = [] then wordsFrom [] s else acc.reverse :: wordsFrom [] s)
    else wordsFrom (c :: acc) s

def words (s : String) : List String := (wordsFrom [] s.toList).map String.ofList

end MediaCatalog.Text
