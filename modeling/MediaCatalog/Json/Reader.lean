import MediaCatalog.Json
import MediaCatalog.Number.Reader
import MediaCatalog.Text.Percent

namespace MediaCatalog.Json

inductive Fault where
  | expectingValue (pos : Nat)
  | expectingName (pos : Nat)
  | expectingColon (pos : Nat)
  | expectingComma (pos : Nat)
  | unterminated (pos : Nat)
  | controlCharacter (pos : Nat)
  | badEscape (pos : Nat)
  | badCodeEscape (pos : Nat)
  | extraData (pos : Nat)
  | byteOrderMark
  | tooManyDigits
  deriving DecidableEq, Repr

def Fault.pos : Fault → Nat
  | .expectingValue p | .expectingName p | .expectingColon p | .expectingComma p
  | .unterminated p | .controlCharacter p | .badEscape p | .badCodeEscape p | .extraData p => p
  | .byteOrderMark | .tooManyDigits => 0

def Fault.summary : Fault → String
  | .expectingValue _ => "Expecting value"
  | .expectingName _ => "Expecting property name enclosed in double quotes"
  | .expectingColon _ => "Expecting ':' delimiter"
  | .expectingComma _ => "Expecting ',' delimiter"
  | .unterminated _ => "Unterminated string starting at"
  | .controlCharacter _ => "Invalid control character at"
  | .badEscape _ => "Invalid \\escape"
  | .badCodeEscape _ => "Invalid \\uXXXX escape"
  | .extraData _ => "Extra data"
  | .byteOrderMark => "Unexpected UTF-8 BOM (decode using utf-8-sig)"
  | .tooManyDigits => "Exceeds the limit (4300 digits) for integer string conversion"

def Fault.message (f : Fault) (s : List Char) : String :=
  let before := s.take f.pos
  let line := before.count '\n' + 1
  let column := (before.reverse.takeWhile (· != '\n')).length + 1
  match f with
  | .tooManyDigits => f.summary
  | _ => f.summary ++ ": line " ++ natText line ++ " column " ++ natText column ++
      " (char " ++ natText f.pos ++ ")"

/-- A reader knows the length of the whole text, so that the rest tells the position. -/
def offset (total : Nat) (rest : List Char) : Nat := total - rest.length

def isGap (c : Char) : Bool := c == ' ' || c == '\t' || c == '\n' || c == '\r'

def skipGap (s : List Char) : List Char := s.dropWhile isGap

def simpleEscape? (c : Char) : Option Char :=
  match c with
  | '"' => some '"' | '\\' => some '\\' | '/' => some '/'
  | 'b' => some (Char.ofNat 8) | 'f' => some (Char.ofNat 12)
  | 'n' => some '\n' | 'r' => some '\r' | 't' => some '\t'
  | _ => none

def code? : List Char → Option (Nat × List Char)
  | a :: b :: c :: d :: rest => do
    let a ← Text.Percent.hexValue? a
    let b ← Text.Percent.hexValue? b
    let c ← Text.Percent.hexValue? c
    let d ← Text.Percent.hexValue? d
    some (((a * 16 + b) * 16 + c) * 16 + d, rest)
  | _ => none

def scalar (n : Nat) : Char := if 0xD800 ≤ n && n < 0xE000 then '\uFFFD' else Char.ofNat n

/-- A code escape after its letter, joined with a second one when the two are a surrogate pair. At
least one character has to follow an escape. -/
def codeEscape (total : Nat) (s : List Char) : Except Fault (Char × List Char) :=
  let fault := Fault.badCodeEscape (offset total s - 1)
  if s.length < 5 then .error fault
  else match code? s with
    | none => .error fault
    | some (hi, rest) =>
      match rest with
      | '\\' :: 'u' :: more =>
        if 0xD800 ≤ hi && hi < 0xDC00 && 5 ≤ more.length then
          match code? more with
          | none => .error (.badCodeEscape (offset total more - 1))
          | some (lo, rest') =>
            if 0xDC00 ≤ lo && lo < 0xE000 then
              .ok (Char.ofNat (0x10000 + (hi - 0xD800) * 1024 + (lo - 0xDC00)), rest')
            else .ok (scalar hi, rest)
        else .ok (scalar hi, rest)
      | _ => .ok (scalar hi, rest)

def string (total start : Nat) : Nat → List Char → List Char → Except Fault (String × List Char)
  | 0, _, _ => .error (.unterminated start)
  | _ + 1, _, [] => .error (.unterminated start)
  | fuel + 1, acc, c :: s =>
    if c = '"' then .ok (String.ofList acc.reverse, s)
    else if c = '\\' then
      match s with
      | [] => .error (.unterminated start)
      | 'u' :: s => do
        let (c, s) ← codeEscape total s
        string total start fuel (c :: acc) s
      | e :: s' =>
        match simpleEscape? e with
        | some c => string total start fuel (c :: acc) s'
        | none => .error (.badEscape (offset total (c :: s)))
    else if c.toNat < 32 then .error (.controlCharacter (offset total (c :: s)))
    else string total start fuel (c :: acc) s

def word? (w : String) (s : List Char) : Option (List Char) :=
  if w.toList.isPrefixOf s then some (s.drop w.length) else none

def number (total : Nat) (s : List Char) : Except Fault (Json × List Char) :=
  let (neg, body) := match s with
    | '-' :: r => (true, r)
    | r => (false, r)
  let (whole, rest) := match body with
    | '0' :: r => (['0'], r)
    | r => r.span Char.isDigit
  if whole = [] then .error (.expectingValue (offset total s))
  else
    let (frac, rest) := match rest with
      | '.' :: d :: r => if d.isDigit then (d :: r).span Char.isDigit else ([], rest)
      | _ => ([], rest)
    let (exp, rest) : Option Int × List Char := match rest with
      | e :: r =>
        let (eneg, ds) := Number.splitSign r
        let digits := ds.takeWhile Char.isDigit
        if (e = 'e' || e = 'E') && digits != [] then
          (some (Binary64.signed eneg (Number.digitsValue digits)), ds.dropWhile Char.isDigit)
        else (none, rest)
      | [] => (none, rest)
    if frac = [] && exp.isNone then
      if Number.maxDigits < whole.length then .error .tooManyDigits
      else .ok (.int (Binary64.signed neg (Number.digitsValue whole)), rest)
    else
      .ok (.float (Number.ofDecimal neg (Number.digitsValue (whole ++ frac))
        (exp.getD 0 - frac.length)), rest)

mutual

def value (total : Nat) : Nat → List Char → Except Fault (Json × List Char)
  | 0, s => .error (.expectingValue (offset total s))
  | _ + 1, [] => .error (.expectingValue total)
  | fuel + 1, c :: s =>
    if c = '"' then do
      let (t, rest) ← string total (offset total (c :: s)) (s.length + 1) [] s
      return (.str t, rest)
    else if c = '[' then
      match skipGap s with
      | ']' :: rest => .ok (.arr [], rest)
      | s => elements total fuel [] s
    else if c = '\x7b' then
      match skipGap s with
      | '\x7d' :: rest => .ok (.obj [], rest)
      | s => members total fuel [] s
    else if let some rest := word? "null" (c :: s) then .ok (.null, rest)
    else if let some rest := word? "true" (c :: s) then .ok (.bool true, rest)
    else if let some rest := word? "false" (c :: s) then .ok (.bool false, rest)
    else if let some rest := word? "NaN" (c :: s) then .ok (.float .nan, rest)
    else if let some rest := word? "Infinity" (c :: s) then .ok (.float (.inf false), rest)
    else if let some rest := word? "-Infinity" (c :: s) then .ok (.float (.inf true), rest)
    else number total (c :: s)

def elements (total : Nat) : Nat → List Json → List Char → Except Fault (Json × List Char)
  | 0, _, s => .error (.expectingValue (offset total s))
  | fuel + 1, acc, s => do
    let (x, rest) ← value total fuel s
    match skipGap rest with
    | ']' :: rest => .ok (.arr (x :: acc).reverse, rest)
    | ',' :: rest => elements total fuel (x :: acc) (skipGap rest)
    | rest => .error (.expectingComma (offset total rest))

def members (total : Nat) : Nat → List (String × Json) → List Char → Except Fault (Json × List Char)
  | 0, _, s => .error (.expectingValue (offset total s))
  | fuel + 1, acc, '"' :: s => do
    let (k, rest) ← string total (offset total ('"' :: s)) (s.length + 1) [] s
    match skipGap rest with
    | ':' :: rest =>
      let (x, rest) ← value total fuel (skipGap rest)
      let acc := setField k x acc
      match skipGap rest with
      | '\x7d' :: rest => .ok (.obj acc, rest)
      | ',' :: rest => members total fuel acc (skipGap rest)
      | rest => .error (.expectingComma (offset total rest))
    | rest => .error (.expectingColon (offset total rest))
  | _ + 1, _, s => .error (.expectingName (offset total s))

end

def readChars (s : List Char) : Except Fault Json :=
  if s.head? = some '\uFEFF' then .error .byteOrderMark
  else do
    let total := s.length
    let (x, rest) ← value total (total + 1) (skipGap s)
    match skipGap rest with
    | [] => .ok x
    | rest => .error (.extraData (offset total rest))

def read (s : String) : Except Fault Json := readChars s.toList

end MediaCatalog.Json
