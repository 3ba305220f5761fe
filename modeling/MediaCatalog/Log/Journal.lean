import MediaCatalog.Log.Sink
import MediaCatalog.World

namespace MediaCatalog.Log

open World

structure Journal where
  path : Path
  sink : Sink
  json : Bool
  dueAt : Int
  deriving DecidableEq, Repr

namespace Journal

def keptFiles : Nat := 14

def now : Doing Int := do return (← Act.getState).clock

def create (path : Path) : Doing Unit := do
  if ← exists? path then
    let _ ← load path
  else store path []

/-- The day of a file is that of its last change. -/
def firstDue (path : Path) : Doing Int := do
  let last ← if ← exists? path then
      match ← stat path with
      | .file _ changedAt => pure changedAt
      | _ => now
    else now
  return midnightAfter (Record.wholeSeconds last)

def start (path : Path) (sink : Sink) (json : Bool) : Doing Journal := do
  let dueAt ← firstDue path
  create path
  return { path, sink, json, dueAt }

def shelfPath (j : Journal) : Path :=
  j.path.parent / (j.path.name ++ "." ++ dateText (j.dueAt - secondsPerDay))

def isDateText (s : List Char) : Bool :=
  s.length == 10 && s.zipIdx.all fun p => if p.2 == 4 || p.2 == 7 then p.1 == '-' else p.1.isDigit

def isShelved (j : Journal) (name : String) : Bool :=
  let front := j.path.name.toList ++ ['.']
  front.isPrefixOf name.toList && isDateText (name.toList.drop front.length)

def shelved (j : Journal) : Doing (List String) := do
  let w ← Act.getState
  match w.files.find w.cwd j.path.parent with
  | .error _ => return []
  | .ok place =>
    let names := (w.files.children place).map fun e => e.1.getLastD ""
    return (names.filter j.isShelved).mergeSort

def remove (p : Path) : Doing Unit := World.change fun fs cwd => fs.unlink cwd p

def putAside (j : Journal) : Doing Unit := do
  if ← exists? j.shelfPath then remove j.shelfPath
  World.change fun fs cwd => fs.rename cwd j.path j.shelfPath
  let names ← j.shelved
  (names.take (names.length - keptFiles)).forM fun name => remove (j.path.parent / name)
  store j.path []

def isDue (j : Journal) : Doing Bool := do
  return decide (j.dueAt ≤ Record.wholeSeconds (← now)) && (← isFile j.path)

def line? (j : Journal) (now : Int) (r : Record) : Option String :=
  if j.json then r.jsonLine? now else r.stampedLine? now

def append (j : Journal) (records : List Record) : Doing Unit := do
  let accepted := records.filter j.sink.accepts
  if accepted.isEmpty then return ()
  if ← j.isDue then j.putAside
  let instant ← now
  let text := String.join (accepted.filterMap (j.line? instant))
  store j.path ((← load j.path) ++ Text.Utf8.ofString text)

end Journal

end MediaCatalog.Log
