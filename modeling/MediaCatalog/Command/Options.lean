import MediaCatalog.Number.Reader
import MediaCatalog.Text.Digit

namespace MediaCatalog.Command

inductive Effect where
  | mark
  | help
  | take (accepts : String → Bool)

structure Flag where
  names : List String
  effect : Effect

def Flag.key (f : Flag) : String := f.names.getLastD ""

def Flag.takes (f : Flag) : Bool :=
  match f.effect with
  | .take _ => true
  | _ => false

inductive Stop where
  | help
  | refused
  deriving DecidableEq, Repr

inductive Word where
  | plain
  | divider
  | unknown
  | flag (f : Flag) (isShort : Bool) (value : Option (List Char))

def named? (flags : List Flag) (name : String) : Option Flag :=
  flags.find? (fun f => f.names.contains name)

def isLong (w : List Char) : Bool := ['-', '-'].isPrefixOf w

def candidates (flags : List Flag) (w : List Char) : List Word :=
  if isLong w then
    let (front, value) := w.span (· != '=')
    let value := if value = [] then none else some (value.drop 1)
    flags.flatMap fun f =>
      (f.names.filter (fun n => front.isPrefixOf n.toList)).map fun _ => .flag f false value
  else
    flags.flatMap fun f =>
      (f.names.filter (fun n => n.toList = w.take 2)).map fun _ => .flag f true (some (w.drop 2))

def isNegativeNumber (w : List Char) : Bool :=
  match w with
  | '-' :: rest =>
    let (whole, more) := rest.span Text.isDecimal
    match more with
    | [] => whole != []
    | '.' :: places => places != [] && places.all Text.isDecimal
    | _ => false
  | _ => false

def byName? (flags : List Flag) (w : List Char) : Option Word :=
  let isShort := !isLong w
  match named? flags (String.ofList w) with
  | some f => some (.flag f isShort none)
  | none =>
    let (front, value) := w.span (· != '=')
    if value = [] then none
    else (named? flags (String.ofList front)).map (.flag · isShort (some (value.drop 1)))

def classify (flags : List Flag) (w : List Char) : Except Stop Word :=
  if w.head? ≠ some '-' || w = ['-'] then .ok .plain
  else match byName? flags w, candidates flags w with
    | some word, _ => .ok word
    | none, [word] => .ok word
    | none, _ :: _ => .error .refused
    | none, [] => .ok (if isNegativeNumber w || w.contains ' ' then .plain else .unknown)

/-- Words with what they are; behind two hyphens nothing is an option. -/
def classifyAll (flags : List Flag) : List String → Except Stop (List (String × Word))
  | [] => .ok []
  | w :: rest =>
    if w = "--" then .ok ((w, .divider) :: rest.map (·, .plain))
    else do return (w, ← classify flags w.toList) :: (← classifyAll flags rest)

structure Parsed where
  settings : List (String × String) := []
  hasLeftover : Bool := false
  command : Option (String × List String) := none
  deriving DecidableEq, Repr

namespace Parsed

def value? (p : Parsed) (key : String) : Option String :=
  (p.settings.reverse.find? (fun s => s.1 == key)).map (·.2)

/-- An empty value counts as none. -/
def given? (p : Parsed) (key : String) : Option String := (p.value? key).filter (· != "")

def count (p : Parsed) (key : String) : Nat := p.settings.countP (·.1 == key)

def has (p : Parsed) (key : String) : Bool := 0 < p.count key

def push (p : Parsed) (f : Flag) (value : String) : Parsed :=
  { p with settings := p.settings ++ [(f.key, value)] }

def mark (p : Parsed) (f : Flag) : Except Stop Parsed :=
  match f.effect with
  | .help => .error .help
  | _ => .ok (p.push f "")

def set (p : Parsed) (f : Flag) (value : String) : Except Stop Parsed :=
  match f.effect with
  | .take accepts => if accepts value then .ok (p.push f value) else .error .refused
  | _ => p.mark f

end Parsed

def cluster (flags : List Flag) (f : Flag) (isShort : Bool) :
    List Char → Except Stop (List Flag × Option String)
  | [] => if f.takes then .ok ([f], some "") else .error .refused
  | c :: rest =>
    if f.takes then .ok ([f], some (String.ofList (c :: rest)))
    else if !isShort then .error .refused
    else match named? flags (String.ofList ['-', c]) with
      | none => .error .refused
      | some g =>
        if rest = [] then .ok ([f, g], none)
        else do
          let (more, value) ← cluster flags g true rest
          return (f :: more, value)

def joined (flags : List Flag) (f : Flag) (isShort : Bool) :
    Option (List Char) → Except Stop (List Flag × Option String)
  | none => .ok ([f], none)
  | some value => cluster flags f isShort value

/-- Goes through the words; a value that is missing from its own word is the next plain one. -/
def readWords (flags : List Flag) (hasCommands : Bool) (p : Parsed) :
    List (String × Word) → Except Stop Parsed
  | [] => .ok p
  | (_, .divider) :: _ => .error .refused
  | (_, .unknown) :: rest => readWords flags hasCommands { p with hasLeftover := true } rest
  | (w, .plain) :: rest =>
    if hasCommands then .ok { p with command := some (w, rest.map (·.1)) }
    else readWords flags hasCommands { p with hasLeftover := true } rest
  | (_, .flag f isShort value) :: rest => do
    let (fs, value) ← joined flags f isShort value
    let last := fs.getLastD f
    let marked := fs.dropLast.foldlM Parsed.mark p
    match value, last.takes with
    | some v, _ => readWords flags hasCommands (← (← marked).set last v) rest
    | none, false => readWords flags hasCommands (← (← marked).set last "") rest
    | none, true =>
      match rest with
      | (w, .plain) :: rest => readWords flags hasCommands (← (← marked).set last w) rest
      | _ => throw .refused

def parse (flags : List Flag) (hasCommands : Bool) (words : List String) : Except Stop Parsed := do
  readWords flags hasCommands {} (← classifyAll flags words)

end MediaCatalog.Command
