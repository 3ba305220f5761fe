import MediaCatalog.Log.Journal

namespace MediaCatalog.Log

open World

structure Options where
  dir : Option Path := none
  verbose : Int := 0
  quiet : Bool := false
  level : Option String := none
  json : Bool := false
  deriving DecidableEq, Repr

def upperChar (c : Char) : Char :=
  if c = 'ı' then 'I' else if c = 'ſ' then 'S' else c.toUpper

def noLevel (name : String) : Failure := ⟨.attribute, "no level is named " ++ name, []⟩

/-- The level of a name in any case. Two names are known that stand for no level. -/
def namedLevel (name : String) : Except Failure Level :=
  let upper := name.map upperChar
  match upper with
  | "CRITICAL" | "FATAL" => .ok critical
  | "ERROR" => .ok error
  | "WARNING" | "WARN" => .ok warning
  | "INFO" => .ok info
  | "DEBUG" => .ok debug
  | "NOTSET" => .ok 0
  | "BASIC_FORMAT" => .error (.ofValue "no level but a layout")
  | "_STYLES" => .error ⟨.type, "no level but a table", []⟩
  | _ => .error (noLevel upper)

namespace Options

def namedLevel? (o : Options) : Option String := o.level.filter (· != "")

def sinks (o : Options) : Except Failure (Sink × Sink) :=
  match o.namedLevel? with
  | some name => do
    let level ← namedLevel name
    return (⟨level, none⟩, ⟨level, none⟩)
  | none =>
    .ok (if o.quiet then (⟨warning, none⟩, ⟨info, none⟩)
      else if 2 ≤ o.verbose then (⟨debug, none⟩, ⟨debug, none⟩)
      else if 1 ≤ o.verbose then (⟨info, none⟩, ⟨info, none⟩)
      else (⟨info, some info⟩, ⟨info, none⟩))

end Options

structure Logging where
  console : Sink
  journal : Option Journal := none
  deriving DecidableEq, Repr

namespace Logging

def rootLogger : String := "mediashelf"

def fileName : String := "mediashelf.log"

def start (o : Options) : Doing Logging := do
  let (console, sink) ← Act.ofExcept o.sinks
  match o.dir with
  | none => return { console }
  | some dir =>
    ensureDir dir
    let journal ← Journal.start (dir / fileName) sink o.json
    Act.log ⟨debug, rootLogger, "Log file: %s", [.text journal.path.toString], none⟩
    return { console, journal := some journal }

def consoleText (l : Logging) (records : List Record) : String :=
  String.join ((records.filter l.console.accepts).filterMap Record.plainLine?)

def write (l : Logging) (records : List Record) : Doing Unit :=
  match l.journal with
  | some j => j.append records
  | none => return ()

end Logging

end MediaCatalog.Log
