import MediaCatalog.Calendar
import MediaCatalog.Number.Reader
import MediaCatalog.Toml.Document

namespace MediaCatalog.Toml

def malformed {α : Type} : Except Fault α := .error .malformed

/-- Control characters other than tabs stand nowhere; newlines only where a text has several
lines. -/
def isForbidden (lines : Bool) (c : Char) : Bool :=
  (c.toNat < 32 || c.toNat = 127) && c != '\t' && !(lines && c = '\n')

def isGap (c : Char) : Bool := c = ' ' || c = '\t'

def isLineGap (c : Char) : Bool := isGap c || c = '\n'

def skipGap (s : List Char) : List Char := s.dropWhile isGap

def literal (lines : Bool) (close : List Char) : List Char → Except Fault (List Char × List Char)
  | [] => malformed
  | c :: s =>
    if close.isPrefixOf (c :: s) then .ok ([], (c :: s).drop close.length)
    else if isForbidden lines c then malformed
    else do
      let (t, rest) ← literal lines close s
      return (c :: t, rest)

def simpleEscape? : Char → Option Char
  | 'b' => some (Char.ofNat 8)
  | 't' => some '\t'
  | 'n' => some '\n'
  | 'f' => some (Char.ofNat 12)
  | 'r' => some '\r'
  | '"' => some '"'
  | '\\' => some '\\'
  | _ => none

def hexDigit? (c : Char) : Option Nat :=
  if '0' ≤ c && c ≤ '9' then some (c.toNat - 48)
  else if 'a' ≤ c && c ≤ 'f' then some (c.toNat - 87)
  else if 'A' ≤ c && c ≤ 'F' then some (c.toNat - 55)
  else none

def scalar? (digits : List Char) : Option Char := do
  let ds ← digits.mapM hexDigit?
  let n := ds.foldl (fun n d => n * 16 + d) 0
  if n < 0xD800 || (0xE000 ≤ n && n < 0x110000) then some (Char.ofNat n) else none

/-- The escape after a backslash: one character, or none where lines are joined. -/
def escape (lines : Bool) : List Char → Except Fault (List Char × List Char)
  | [] => malformed
  | c :: s =>
    if c = 'u' || c = 'U' then
      let n := if c = 'u' then 4 else 8
      if s.length < n then malformed
      else match scalar? (s.take n) with
        | some x => .ok ([x], s.drop n)
        | none => malformed
    else if lines && isLineGap c then
      match skipGap (c :: s) with
      | [] => .ok ([], [])
      | '\n' :: rest => .ok ([], rest.dropWhile isLineGap)
      | _ => malformed
    else match simpleEscape? c with
      | some x => .ok ([x], s)
      | none => malformed

def basic (lines : Bool) (close : List Char) :
    Nat → List Char → Except Fault (List Char × List Char)
  | _, [] | 0, _ => malformed
  | fuel + 1, c :: s =>
    if close.isPrefixOf (c :: s) then .ok ([], (c :: s).drop close.length)
    else if c = '\\' then do
      let (x, s) ← escape lines s
      let (t, rest) ← basic lines close fuel s
      return (x ++ t, rest)
    else if isForbidden lines c then malformed
    else do
      let (t, rest) ← basic lines close fuel s
      return (c :: t, rest)

/-- One or two marks more belong to the text before the closing ones. -/
def extraMarks (mark : Char) : List Char × List Char → List Char × List Char
  | (t, a :: b :: s) =>
    if a = mark then
      if b = mark then (t ++ [mark, mark], s) else (t ++ [mark], b :: s)
    else (t, a :: b :: s)
  | (t, [a]) => if a = mark then (t ++ [mark], []) else (t, [a])
  | r => r

def afterNewline : List Char → List Char
  | '\n' :: s => s
  | s => s

def text : List Char → Except Fault (String × List Char)
  | '"' :: '"' :: '"' :: s => do
    let (t, rest) := extraMarks '"' (← basic true ['"', '"', '"'] s.length.succ (afterNewline s))
    return (String.ofList t, rest)
  | '"' :: s => do
    let (t, rest) ← basic false ['"'] s.length.succ s
    return (String.ofList t, rest)
  | '\'' :: '\'' :: '\'' :: s => do
    let (t, rest) := extraMarks '\'' (← literal true ['\'', '\'', '\''] (afterNewline s))
    return (String.ofList t, rest)
  | '\'' :: s => do
    let (t, rest) ← literal false ['\''] s
    return (String.ofList t, rest)
  | _ => malformed

def lineText : List Char → Except Fault (String × List Char)
  | '"' :: s => do
    let (t, rest) ← basic false ['"'] s.length.succ s
    return (String.ofList t, rest)
  | '\'' :: s => do
    let (t, rest) ← literal false ['\''] s
    return (String.ofList t, rest)
  | _ => malformed

def moreDigits (isDigit : Char → Bool) : List Char → List Char × List Char
  | '_' :: d :: s =>
    if isDigit d then
      let (ds, rest) := moreDigits isDigit s
      (d :: ds, rest)
    else ([], '_' :: d :: s)
  | d :: s =>
    if isDigit d then
      let (ds, rest) := moreDigits isDigit s
      (d :: ds, rest)
    else ([], d :: s)
  | [] => ([], [])

def digits? (isDigit : Char → Bool) : List Char → Option (List Char × List Char)
  | d :: s =>
    if isDigit d then
      let (ds, rest) := moreDigits isDigit s
      some (d :: ds, rest)
    else none
  | [] => none

def radix (base : Nat) (s : List Char) : Except Fault (Json × List Char) :=
  let isDigit (c : Char) : Bool := ((hexDigit? c).map (fun d => decide (d < base))).getD false
  match digits? isDigit s with
  | none => malformed
  | some (ds, rest) =>
    .ok (.int (ds.foldl (fun n c => n * base + (hexDigit? c).getD 0) 0 : Nat), rest)

/-- The whole part has no needless zero in front. -/
def wholePart? : List Char → Option (List Char × List Char)
  | '0' :: s => some (['0'], s)
  | s => digits? Char.isDigit s

def fraction (s : List Char) : List Char × List Char :=
  match s with
  | '.' :: r => (digits? Char.isDigit r).getD ([], s) |> fun p =>
    if p.1 = [] then ([], s) else ('.' :: p.1, p.2)
  | _ => ([], s)

def exponent (s : List Char) : List Char × List Char :=
  match s with
  | c :: r =>
    let (sign, digits) := match r with
      | '+' :: t => (['+'], t)
      | '-' :: t => (['-'], t)
      | t => ([], t)
    match digits? Char.isDigit digits with
    | some (ds, rest) => if c = 'e' || c = 'E' then (c :: sign ++ ds, rest) else ([], s)
    | none => ([], s)
  | [] => ([], s)

def decimal (s : List Char) : Except Fault (Json × List Char) :=
  let (neg, unsigned) := Number.splitSign s
  match wholePart? unsigned with
  | none => malformed
  | some (whole, afterWhole) =>
    let (frac, afterFraction) := fraction afterWhole
    let (exp, rest) := exponent afterFraction
    if frac = [] && exp = [] then
      if Number.maxDigits < whole.length then .error .tooManyDigits
      else .ok (.int (Binary64.signed neg (Number.digitsValue whole)), rest)
    else match Number.decimal? neg (whole ++ frac ++ exp) with
      | some x => .ok (.float x, rest)
      | none => malformed

def special? (s : List Char) : Option (Json × List Char) :=
  let (neg, word) := Number.splitSign s
  if "inf".toList.isPrefixOf word then some (.float (.inf neg), word.drop 3)
  else if "nan".toList.isPrefixOf word then some (.float .nan, word.drop 3)
  else none

def number (s : List Char) : Except Fault (Json × List Char) :=
  match s with
  | '0' :: 'x' :: r => radix 16 r
  | '0' :: 'o' :: r => radix 8 r
  | '0' :: 'b' :: r => radix 2 r
  | _ =>
    match special? s with
    | some r => .ok r
    | none => decimal s

def twoDigits? (low high : Nat) : List Char → Option (Nat × List Char)
  | a :: b :: s =>
    let n := (a.toNat - 48) * 10 + (b.toNat - 48)
    if a.isDigit && b.isDigit && low ≤ n && n ≤ high then some (n, s) else none
  | _ => none

def mark? (c : Char) : List Char → Option (List Char)
  | x :: s => if x = c then some s else none
  | [] => none

/-- Six digits of the second's fraction; further ones are dropped. -/
def fractionText (s : List Char) : String × List Char :=
  match s with
  | '.' :: r =>
    let ds := r.takeWhile Char.isDigit
    if ds = [] then ("", s)
    else
      let six := (ds ++ List.replicate 6 '0').take 6
      (if six.all (· == '0') then "" else "." ++ String.ofList six, r.drop ds.length)
  | _ => ("", s)

def time? (s : List Char) : Option (String × List Char) := do
  let (h, s) ← twoDigits? 0 23 s
  let (m, s) ← twoDigits? 0 59 (← mark? ':' s)
  let (sec, s) ← twoDigits? 0 59 (← mark? ':' s)
  let (frac, s) := fractionText s
  return (padZeros 2 h ++ ":" ++ padZeros 2 m ++ ":" ++ padZeros 2 sec ++ frac, s)

def zone (s : List Char) : String × List Char :=
  match s with
  | 'Z' :: r | 'z' :: r => ("+00:00", r)
  | c :: r =>
    let read : Option (String × List Char) := do
      let (h, r) ← twoDigits? 0 23 r
      let (m, r) ← twoDigits? 0 59 (← mark? ':' r)
      let sign := if c = '-' && (0 < h || 0 < m) then "-" else "+"
      return (sign ++ padZeros 2 h ++ ":" ++ padZeros 2 m, r)
    if c = '+' || c = '-' then read.getD ("", s) else ("", s)
  | [] => ("", s)

def day? (s : List Char) : Option (Date × List Char) := do
  let (a, s) ← twoDigits? 0 99 s
  let (b, s) ← twoDigits? 0 99 s
  let (m, s) ← twoDigits? 1 12 (← mark? '-' s)
  let (d, s) ← twoDigits? 1 31 (← mark? '-' s)
  return (⟨(a * 100 + b : Nat), m, d⟩, s)

def timeOfDay? : List Char → Option (String × List Char)
  | c :: s => if c = 'T' || c = 't' || c = ' ' then time? s else none
  | [] => none

/-- A day with or without a time, or a time alone, as text. -/
def moment? (s : List Char) : Option (Except Fault (Json × List Char)) :=
  match day? s with
  | some (d, afterDay) =>
    if !d.isReal then some malformed
    else match timeOfDay? afterDay with
      | none => some (.ok (.str d.text, afterDay))
      | some (t, afterTime) =>
        let (z, rest) := zone afterTime
        some (.ok (.str (d.text ++ " " ++ t ++ z), rest))
  | none => (time? s).map fun p => .ok (.str p.1, p.2)

end MediaCatalog.Toml
