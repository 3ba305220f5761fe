import MediaCatalog.Text.Percent

namespace MediaCatalog.Uri

inductive Malformed where
  | unbalancedBrackets
  | badAddress
  | disguisedDelimiter
  deriving DecidableEq, Repr

structure Parts where
  scheme : List Char
  authority : List Char
  path : List Char
  deriving DecidableEq, Repr

def isSchemeChar (c : Char) : Bool := c.isAlphanum || c == '+' || c == '-' || c == '.'

def isBreak (c : Char) : Bool := c == '\t' || c == '\r' || c == '\n'

def clean (s : List Char) : List Char :=
  (s.dropWhile (fun c => c.toNat ≤ 0x20)).filter (fun c => !isBreak c)

/-- The lower-case scheme and what follows its colon, when the text starts with one. -/
def splitScheme (s : List Char) : List Char × List Char :=
  match s.span (· != ':') with
  | (c :: scheme, _ :: rest) =>
    if c.isAlpha && (c :: scheme).all isSchemeChar then ((c :: scheme).map Char.toLower, rest)
    else ([], s)
  | _ => ([], s)

def splitAuthority : List Char → List Char × List Char
  | '/' :: '/' :: s => s.span (fun c => c != '/' && c != '?' && c != '#')
  | s => ([], s)

def splitOn (sep : Char) : List Char → List (List Char)
  | [] => [[]]
  | c :: s =>
    if c == sep then [] :: splitOn sep s
    else match splitOn sep s with
      | [] => [[c]]
      | p :: ps => (c :: p) :: ps

/-- A decimal octet without leading zeros. -/
def isOctet (s : List Char) : Bool :=
  s != [] && s.all Char.isDigit && s.length ≤ 3 && (s == ['0'] || s.head? != some '0') &&
    (s.foldl (fun n c => 10 * n + (c.toNat - 48)) 0) ≤ 255

def isIpv4 (s : List Char) : Bool :=
  let octets := splitOn '.' s
  octets.length == 4 && octets.all isOctet

def isGroup (s : List Char) : Bool :=
  s != [] && s.length ≤ 4 && s.all (fun c => (Text.Percent.hexValue? c).isSome)

def innerGaps (groups : List (List Char)) : List Nat :=
  (List.range groups.length).filter
    (fun i => 0 < i && i + 1 < groups.length && groups.getD i [] == [])

def isIpv6Groups (groups : List (List Char)) : Bool :=
  let n := groups.length
  let first := groups.getD 0 [] == []
  let last := groups.getLastD [] == []
  if n < 3 || 9 < n then false
  else match innerGaps groups with
    | [] => n == 8 && groups.all isGroup
    | [i] =>
      let hi := if first then i - 1 else i
      let lo := if last then n - i - 2 else n - i - 1
      (!first || hi == 0) && (!last || lo == 0) && hi + lo < 8 &&
        (groups.take hi).all isGroup && (groups.drop (n - lo)).all isGroup
    | _ => false

/-- An IPv6 address, with an optional zone after a percent sign and an optional IPv4 tail. -/
def isIpv6 (s : List Char) : Bool :=
  let (addr, zone) := s.span (· != '%')
  let zoneOk := match zone with
    | [] => true
    | _ :: z => z != [] && !z.contains '%'
  let groups := splitOn ':' addr
  let tail := groups.getLastD []
  !s.contains '/' && zoneOk && 3 ≤ groups.length &&
    if tail.contains '.' then isIpv4 tail && isIpv6Groups (groups.dropLast ++ [['0'], ['0']])
    else isIpv6Groups groups

/-- The IPvFuture form: `v`, hexadecimal digits, a dot, and at least one more character. -/
def isFutureAddress (s : List Char) : Bool :=
  match s with
  | 'v' :: rest =>
    match rest.span (fun c => (Text.Percent.hexValue? c).isSome) with
    | (_ :: _, '.' :: c :: more) => (c :: more).all (· != '\n')
    | _ => false
  | _ => false

def isBracketHost (s : List Char) : Bool :=
  if s.head? == some 'v' then isFutureAddress s else isIpv6 s

/-- The characters beyond ASCII whose compatibility normalisation holds one of `/?#@:`. -/
def disguises : List Nat :=
  [0x2047, 0x2048, 0x2049, 0x2100, 0x2101, 0x2105, 0x2106, 0x2A74, 0xFE13, 0xFE16, 0xFE55,
   0xFE56, 0xFE5F, 0xFE6B, 0xFF03, 0xFF0F, 0xFF1A, 0xFF1F, 0xFF20]

def checkAuthority (s : List Char) : Except Malformed Unit :=
  if s.contains '[' != s.contains ']' then .error .unbalancedBrackets
  else if s.contains '[' && !isBracketHost
      (((s.dropWhile (· != '[')).drop 1).takeWhile (· != ']')) then .error .badAddress
  else if s.any (fun c => disguises.contains c.toNat) then .error .disguisedDelimiter
  else .ok ()

def split (s : List Char) : Except Malformed Parts := do
  let (scheme, rest) := splitScheme (clean s)
  let (authority, rest) := splitAuthority rest
  checkAuthority authority
  return ⟨scheme, authority, (rest.takeWhile (· != '#')).takeWhile (· != '?')⟩

end MediaCatalog.Uri
