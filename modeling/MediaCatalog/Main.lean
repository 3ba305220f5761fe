import MediaCatalog.Command.Prepare
import MediaCatalog.Command.Query

namespace MediaCatalog.Disk

def maxDepth : Nat := 32

def placeOf (path : String) : Place := (Path.ofString path).parts

def read : Nat → String → IO (List (Place × Node))
  | 0, _ => return []
  | depth + 1, path => do
    let real ← IO.FS.realPath path
    if real.toString != path then
      return (placeOf path, .link real.toString) :: (← read depth real.toString)
    if ← real.isDir then
      let below ← (← real.readDir).toList.mapM fun e => read depth (path ++ "/" ++ e.fileName)
      return (placeOf path, .directory) :: below.flatten
    let changed := (← real.metadata).modified
    let bytes := (← IO.FS.readBinFile path).toList
    return [(placeOf path, .file (.ofBytes bytes) (changed.sec * 1000000000 + changed.nsec.toNat))]

def ancestors (p : Path) : List (Place × Node) :=
  (List.range p.parts.length).map fun n => (p.parts.take n, .directory)

def addEntries (w : World) (entries : List (Place × Node)) : World :=
  { w with files := entries.foldl (fun fs e => fs.put e.1 e.2) w.files }

/-- The world with a path as the disk has it; what cannot be read is left out. -/
def load (w : World) (p : Path) : IO World := do
  let p := p.absolute w.cwd
  let found ← try read maxDepth p.toString catch _ => pure []
  return addEntries w ((ancestors p).filter (·.1 != []) ++ found)

def startTime : IO Int := do
  let real ← IO.FS.realPath "/proc/self"
  return (← real.metadata).modified.sec * 1000000000

def start : IO World := do
  let home := (← IO.getEnv "HOME").getD "/"
  let clock ← try startTime catch _ => pure 0
  return { files := ⟨[]⟩, cwd := .ofString (← IO.currentDir).toString, home, clock
           configured := ← IO.getEnv "MEDIASHELF_CONFIG" }

def named (words : List String) : List Path :=
  words.map fun w => .ofString ((w.splitOn "=").getLastD "")

def loadAll (w : World) (ps : List Path) : IO World := ps.foldlM load w

def configurationFiles (w : World) : List Path :=
  ((w.configured.map Path.ofString).toList ++
    (Configuration.upwards w.cwd).map (· / Configuration.fileName))

def settingsPaths (s : Settings) : List Path := [s.dataDir, s.dbPath, s.mediaRoot]

def loadSettings (w : World) (act : World.Doing Settings) : IO World :=
  match (Act.start act w).1 with
  | .ok s => loadAll w (settingsPaths s)
  | .error _ => return w

def write (place : Place) : Node → IO Unit
  | .directory => IO.FS.createDirAll (Path.mk .slash place).toString
  | .file content _ =>
    IO.FS.writeBinFile (Path.mk .slash place).toString ⟨content.toBytes.toArray⟩
  | .link _ => return ()

def save (old new : FileSystem) : IO Unit := do
  for e in new.entries do
    if old.node? e.1 != some e.2 then write e.1 e.2
  for e in old.entries do
    if (new.node? e.1).isNone then IO.FS.removeFile (Path.mk .slash e.1).toString

end MediaCatalog.Disk

namespace MediaCatalog.Command

def Ending.code : Ending → UInt32
  | .done | .stopped .help => 0
  | .stopped .refused => 2
  | .message _ | .failed _ => 1

def Ending.note : Ending → String
  | .message text => text ++ "\n"
  | .failed f => f.trace ++ "\n"
  | _ => ""

def runOnDisk (w : World) (act : World.Doing Transcript) : IO UInt32 := do
  match Act.start act w with
  | (.error f, _) =>
    IO.eprintln f.trace
    return 1
  | (.ok t, r) =>
    Disk.save w.files r.state.files
    IO.print t.output
    IO.eprint (t.errors ++ t.ending.note)
    return t.ending.code

end MediaCatalog.Command

open MediaCatalog in
/-- The first word tells whether an index is made or looked into. -/
def main (words : List String) : IO UInt32 := do
  let w ← Disk.start
  let w ← Disk.loadAll w (Disk.named words ++ Disk.configurationFiles w)
  match words with
  | "init" :: rest => Command.runOnDisk w (Command.Prepare.run rest)
  | "query" :: rest =>
    let w ← match Command.QueryOptions.read rest with
      | .ok o => Disk.loadSettings w (Command.settingsOf o)
      | .error _ => pure w
    Command.runOnDisk w (Command.Query.run rest)
  | _ =>
    IO.eprintln "the first word is init or query"
    return 2
