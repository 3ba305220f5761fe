import MediaCatalog.Command.Transcript
import MediaCatalog.Configuration
import MediaCatalog.Index.Script

namespace MediaCatalog.Command.Prepare

open World

def flags : List Flag :=
  [helpFlag, ⟨["--db"], .take anyText⟩, ⟨["--schema"], .take anyText⟩]

structure Options where
  db : Option String
  schema : Option String
  deriving DecidableEq, Repr

def Options.read (words : List String) : Except Stop Options := do
  let p ← parse flags false words
  if p.hasLeftover then throw .refused
  return ⟨p.value? "--db", p.value? "--schema"⟩

def databasePath (o : Options) : Doing Path := do
  match o.db with
  | some db => resolve (← expandHome (Path.ofString db))
  | none => return (← Settings.ofConfig (.obj (← Configuration.load none))).dbPath

def notUtf8 : Failure := ⟨.encoding, "the text is not in UTF-8", []⟩

def scriptText (path : String) : Doing String := do
  match Text.Utf8.decode? (← load (Path.ofString path)) with
  | some cs => return String.ofList cs
  | none => Act.fail notUtf8

def applySchema (d : Index.Database) : Option String → Doing Unit
  | none => d.prepare
  | some path => do d.runScript (← scriptText path)

def output (o : Options) : Doing String := do
  let p ← databasePath o
  ensureDir p.parent
  let existed ← exists? p
  let d : Index.Database := ⟨p⟩
  let _ ← d.connect
  applySchema d o.schema
  let what := if existed then "Index already existed; schema ensured at "
    else "Index initialized at "
  return what ++ p.toString ++ "\n"

def run (words : List String) : Doing Transcript := do
  match Options.read words with
  | .error s => return ⟨.stopped s, "", ""⟩
  | .ok o =>
    match ← Act.attempt (output o) with
    | .ok text => return ⟨.done, text, ""⟩
    | .error f => return ⟨.failed f, "", ""⟩

end MediaCatalog.Command.Prepare
