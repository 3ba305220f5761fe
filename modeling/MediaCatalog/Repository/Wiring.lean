import MediaCatalog.Blob.Store
import MediaCatalog.Edit.Picture
import MediaCatalog.Folder.Listing
import MediaCatalog.Index.Database
import MediaCatalog.Item.Listing
import MediaCatalog.Metadata.Reading
import MediaCatalog.Permission
import MediaCatalog.Repository.Request
import MediaCatalog.Settings

namespace MediaCatalog

namespace Settings

open World

def blobs (s : Settings) : Blob.Directory := ⟨s.blobDir⟩

def database (s : Settings) : Index.Database := ⟨s.dbPath⟩

def pathPermission (s : Settings) : PathPermission := ⟨s.dbPath, s.mediaRoot⟩

def folderLister (s : Settings) (access : Doing Bool) (cwd : Path) :
    FolderLister World Index.Cell where
  index := s.database.index
  hasReadAccess := access
  camera := s.cameraDir
  cwd
  allMediaTitle := s.allMediaTitle

def itemLister (s : Settings) (access : Doing Bool) (cwd : Path) : ItemLister World Index.Cell where
  index := s.database.index
  hasReadAccess := access
  cwd

def completer (s : Settings) (access : Doing Bool) : Completer World where
  authority := s.blobs.authority
  probe := Metadata.fileProbe (some s.blobDir)
  hasReadAccess := some access

def merger (s : Settings) (m : Imaging) : Merger World Raster where
  blobs := s.blobs.store
  kit := Raster.kit m
  quality := s.renderQuality

def components (s : Settings) (access : Doing Bool) (m : Imaging := .colourless) :
    Components World Raster where
  folders := do (s.folderLister access (← Act.getState).cwd).list
  items bucketId := do (s.itemLister access (← Act.getState).cwd).list bucketId
  recent := do (s.itemLister access (← Act.getState).cwd).mostRecent
  complete := (s.completer access).complete
  render := (s.merger m).render

end Settings

structure Repository where
  components : Components World Raster
  pool : Pool World Answer

namespace Repository

open World

/-- The permission to read may be given; else the paths decide. -/
def ofSettings (s : Settings) (access : Option (Doing Bool)) (m : Imaging := .colourless) :
    Repository where
  components := s.components (access.getD s.pathPermission.hasReadAccess) m
  pool := { workers := s.maxWorkers.toNat }

def ask (r : Repository) (q : Request World Raster)
    (callback : Option (Answer → Doing Unit) := none) : Doing (Answer × Repository) := do
  let (a, pool) ← r.pool.call (q.job r.components callback)
  return (a, { r with pool })

def close (r : Repository) : Repository := { r with pool := r.pool.close }

end Repository

end MediaCatalog
