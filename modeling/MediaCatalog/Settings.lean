import MediaCatalog.Home
import MediaCatalog.Json.Conversion

namespace MediaCatalog

structure Settings where
  dataDir : Path
  mediaRoot : Path
  blobDir : Path
  thumbDir : Path
  dbPath : Path
  cameraDir : String
  allMediaTitle : String
  renderQuality : Int
  maxWorkers : Int
  deriving DecidableEq, Repr

namespace Settings

open World

abbrev Table := List (String × Json)

def defaultPaths : Table :=
  [("data_dir", .str "data"), ("media_root", .str "/storage/emulated/0"),
   ("blob_subdir", .str "blobs"), ("thumb_subdir", .str "thumb-cache")]

def defaultCatalog : Table :=
  [("camera_dir", .str ""), ("all_media_title", .str "All media"), ("render_quality", .int 80)]

def defaultExecutor : Table := [("max_workers", .int 4)]

def notATable : Failure := ⟨.type, "a table is needed", []⟩

def notATop : Failure := ⟨.attribute, "the top of the configuration is no table", []⟩

def overlaid (defaults : Table) (top : Table) (name : String) : Except Failure Table :=
  match field? name top with
  | none => .ok defaults
  | some (.obj given) => .ok (given.foldl (fun t p => setField p.1 p.2 t) defaults)
  | some _ => .error notATable

/-- Nothing, in any form, stands for an empty configuration. -/
def topTable (cfg : Json) : Except Failure Table :=
  if !cfg.isTruthy then .ok []
  else match cfg with
    | .obj fields => .ok fields
    | _ => .error notATop

def valueOf (t : Table) (name : String) (default : Json) : Json := (field? name t).getD default

def pathOf : Json → Except Failure Path
  | .str s => .ok (Path.ofString s)
  | _ => .error ⟨.type, "a path is a text", []⟩

def homed (v : Json) : Doing Path := do expandHome (← Act.ofExcept (pathOf v))

def under (base : Path) (v : Json) : Doing Path := do return base.join (← homed v)

/-- The index is named by one path, or by a directory and a file under the data directory. -/
def databasePath (dataDir : Path) (paths : Table) : Doing Path := do
  let whole := valueOf paths "db_path" .null
  if whole.isTruthy then under dataDir whole
  else
    let dir ← Act.ofExcept (pathOf (valueOf paths "db_subdir" (.str "db")))
    let file ← Act.ofExcept (pathOf (valueOf paths "db_file" (.str "index.sqlite3")))
    return dataDir.join dir |>.join file

def cameraOf (catalog : Table) (mediaRoot : Path) : String :=
  let v := valueOf catalog "camera_dir" .null
  let given := Text.strip (if v.isTruthy then v.text else "")
  if given = "" then (mediaRoot / "DCIM" / "Camera").toString else given

def ofConfig (cfg : Json) : Doing Settings := do
  let top ← Act.ofExcept (topTable cfg)
  let paths ← Act.ofExcept (overlaid defaultPaths top "paths")
  let catalog ← Act.ofExcept (overlaid defaultCatalog top "catalog")
  let executor ← Act.ofExcept (overlaid defaultExecutor top "executor")
  let dataDir ← resolve (← homed (valueOf paths "data_dir" .null))
  let mediaRoot ← homed (valueOf paths "media_root" .null)
  let blobDir ← resolve (← under dataDir (valueOf paths "blob_subdir" .null))
  let thumbDir ← resolve (← under dataDir (valueOf paths "thumb_subdir" .null))
  let dbPath ← resolve (← databasePath dataDir paths)
  let renderQuality ← Act.ofExcept (valueOf catalog "render_quality" .null).toInt
  let maxWorkers ← Act.ofExcept (valueOf executor "max_workers" .null).toInt
  return { dataDir, mediaRoot, blobDir, thumbDir, dbPath
           cameraDir := cameraOf catalog mediaRoot
           allMediaTitle := (valueOf catalog "all_media_title" .null).text
           renderQuality, maxWorkers := max 1 maxWorkers }

def text (s : Settings) : String :=
  "CatalogSettings(data_dir=" ++ s.dataDir.toString ++ ", media_root=" ++ s.mediaRoot.toString ++
    ", db_path=" ++ s.dbPath.toString ++ ", blob_dir=" ++ s.blobDir.toString ++
    ", thumb_dir=" ++ s.thumbDir.toString ++ ", camera_dir=" ++ s.cameraDir ++
    ", all_media_title=" ++ Text.quoted s.allMediaTitle ++
    ", render_quality=" ++ intText s.renderQuality ++
    ", max_workers=" ++ intText s.maxWorkers ++ ")"

end Settings

end MediaCatalog
