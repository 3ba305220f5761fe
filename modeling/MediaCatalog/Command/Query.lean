import MediaCatalog.Command.Transcript
import MediaCatalog.Configuration
import MediaCatalog.Json.Pairs
import MediaCatalog.Log.Setup
import MediaCatalog.Report.Table
import MediaCatalog.Repository.Wiring

namespace MediaCatalog.Command

open World

structure Selection where
  bucket : Option String
  all : Bool
  limit : Int
  deriving DecidableEq, Repr

inductive Task where
  | folders
  | items (s : Selection)
  | populate (s : Selection)
  | recent
  deriving DecidableEq, Repr

structure QueryOptions where
  config : Option String
  dataDir : Option String
  db : Option String
  skipsPermission : Bool
  logDir : Option String
  logging : Log.Options
  task : Task
  deriving DecidableEq, Repr

namespace QueryOptions

def logLevels : List String := ["DEBUG", "INFO", "WARNING", "ERROR"]

def flags : List Flag :=
  [helpFlag, ⟨["--config"], .take anyText⟩, ⟨["--data-dir"], .take anyText⟩,
   ⟨["--db"], .take anyText⟩, ⟨["--skip-permission-check"], .mark⟩, ⟨["-v", "--verbose"], .mark⟩,
   ⟨["-q", "--quiet"], .mark⟩, ⟨["--log-level"], .take logLevels.contains⟩,
   ⟨["--log-dir"], .take anyText⟩, ⟨["--json-logs"], .mark⟩]

def selectionFlags : List Flag :=
  [helpFlag, ⟨["--bucket"], .take anyText⟩, ⟨["--all"], .mark⟩,
   ⟨["--limit"], .take fun s => (Number.int? s).isSome⟩]

def defaultLimit : Int := 50

def selection (p : Parsed) : Selection where
  bucket := p.given? "--bucket"
  all := p.has "--all"
  limit := ((p.value? "--limit").bind Number.int?).getD defaultLimit

def taskOf (name : String) (words : List String) : Except Stop (Task × Bool) :=
  let plain (task : Task) := do return (task, (← parse [helpFlag] false words).hasLeftover)
  let selecting (task : Selection → Task) := do
    let p ← parse selectionFlags false words
    return (task (selection p), p.hasLeftover)
  match name with
  | "folders" => plain .folders
  | "recent" => plain .recent
  | "items" => selecting .items
  | "populate" => selecting .populate
  | _ => .error .refused

def read (words : List String) : Except Stop QueryOptions := do
  let p ← parse flags true words
  let (name, rest) ← match p.command with
    | some c => pure c
    | none => throw .refused
  let (task, hasLeftover) ← taskOf name rest
  if p.hasLeftover || hasLeftover then throw .refused
  return { config := p.given? "--config", dataDir := p.given? "--data-dir", db := p.given? "--db"
           skipsPermission := p.has "--skip-permission-check", logDir := p.given? "--log-dir"
           logging := { verbose := p.count "--verbose", quiet := p.has "--quiet"
                        level := p.value? "--log-level", json := p.has "--json-logs" }
           task }

end QueryOptions

def overriddenPaths (o : QueryOptions) (paths : Settings.Table) : Doing Settings.Table := do
  let paths := match o.dataDir with
    | some dir => setField "data_dir" (.str dir) paths
    | none => paths
  match o.db with
  | some db =>
    let p ← resolve (← expandHome (Path.ofString db))
    return setField "db_path" (.str p.toString) paths
  | none => return paths

def settingsOf (o : QueryOptions) : Doing Settings := do
  let path ← o.config.mapM fun s => expandHome (Path.ofString s)
  let top ← Configuration.load path
  let pairs ← Act.ofExcept ((field? "paths" top).getD (.obj [])).pairs
  let named := pairs.filterMap fun p => p.1.str?.map (·, p.2)
  let paths ← overriddenPaths o named
  Settings.ofConfig (.obj (setField "paths" (.obj paths) top))

namespace Query

def logger : String := "mediashelf.cli"

/-- The first items; a negative limit counts from the end. -/
def firstItems {α : Type} (limit : Int) (xs : List α) : List α :=
  xs.take (if limit < 0 then (xs.length + limit).toNat else limit.toNat)

def bucketOf (s : Selection) : Performing String :=
  if s.all then return allMediaBucket
  else match s.bucket with
    | some id => return id
    | none => giveUp "--bucket <id> or --all is required"

def tableText (headers : Report.Row) (rows : List Report.Row) : Performing String := do
  let p := Report.table headers rows
  match p.failure with
  | some f => perform (Act.fail f)
  | none => return String.join (p.lines.map (· ++ "\n"))

def itemTable (items : List Item) : Performing String := do
  tableText Report.itemHeaders (← perform (Act.ofExcept (items.mapM Report.itemRow)))

def itemsIn (r : Repository) (s : Selection) : Performing (List Item × Repository) := do
  match ← perform (r.ask (.items (← bucketOf s))) with
  | (.items is, r) => return (firstItems s.limit is, r)
  | (_, r) => return ([], r)

def populate (r : Repository) (items : List Item) : Performing String := do
  match ← perform (r.ask (.populated items)) with
  | (.populated b, _) =>
    let changed := b.items.countP (·.isNew)
    perform (Act.log ⟨Log.info, logger, "%d of %d items needed completion",
      [.int changed, .int items.length], none⟩)
    itemTable (b.items.map (·.item))
  | _ => itemTable items

def report (r : Repository) : Task → Performing String
  | .folders => do
    match ← perform (r.ask .folders) with
    | (.folders fs, _) => tableText Report.folderHeaders (fs.map Report.folderRow)
    | _ => tableText Report.folderHeaders []
  | .items s => do itemTable (← itemsIn r s).1
  | .populate s => do
    let (items, r) ← itemsIn r s
    populate r items
  | .recent => do
    match ← perform (r.ask .recent) with
    | (.recent i, _) => itemTable i.toList
    | _ => itemTable []

def noIndex (s : Settings) : String :=
  "Index not found: " ++ s.dbPath.toString ++ " (run scripts/init_index.py)"

def output (o : QueryOptions) : Performing String := do
  let s ← perform (settingsOf o)
  perform (Act.log ⟨Log.debug, logger, "%s", [.text s.text], none⟩)
  if !(← perform (exists? s.dbPath)) then giveUp (noIndex s)
  else report (.ofSettings s (if o.skipsPermission then some (return true) else none)) o.task

def startLogging (o : QueryOptions) : Doing Log.Logging := do
  let dir ← o.logDir.mapM fun s => expandHome (Path.ofString s)
  Log.Logging.start { o.logging with dir }

def runLogged (o : QueryOptions) : Doing Transcript := do
  let logging ← startLogging o
  let out ← Act.attempt (output o).run
  let records := (← get).log
  logging.write records
  return { Transcript.ofOutcome out with errors := logging.consoleText records }

def run (words : List String) : Doing Transcript := do
  match QueryOptions.read words with
  | .error s => return ⟨.stopped s, "", ""⟩
  | .ok o =>
    match ← Act.attempt (runLogged o) with
    | .ok t => return t
    | .error f => return ⟨.failed f, "", ""⟩

end Query

end MediaCatalog.Command
