import MediaCatalog.Collaborators
import MediaCatalog.Text.Lower

namespace MediaCatalog

/-- A label from an index that does not keep its word: anything but text is refused as soon as a
folder is made of it. -/
inductive LooseLabel where
  | text (s : String)
  | other (shown : String)
  deriving DecidableEq, Repr

instance : Label LooseLabel where
  read
    | .text s => .ok s
    | .other _ => .error .textType
  shown
    | .text s | .other s => s

variable {β : Type} [DecidableEq β] [Label β]

def labelFlaws (name : String) (label : Option β) : List FieldError :=
  match label.map Label.read with
  | some (.error flaw) => [⟨flaw, [.field name]⟩]
  | _ => []

def FolderSummary.folder (kind : FolderKind) (s : FolderSummary β) : Except Failure Folder :=
  match labelFlaws "title" s.title ++ labelFlaws "bucket_id" (some s.bucketId) with
  | [] => .ok
    { thumbnail := some s.thumbnail
      title := s.title.bind Label.text?
      itemCount := s.count
      bucketId := (Label.text? s.bucketId).getD ""
      kind }
  | flaws => .error (.ofFields flaws)

def titleKey (f : Folder) : String := Text.lower (f.title.getD "")

def byTitle (f g : Folder) : Bool := !decide (titleKey g < titleKey f)

structure FolderScans (β : Type) where
  images : KindScan β
  videos : KindScan β

namespace FolderScans

def cameraBucket (s : FolderScans β) : Option β :=
  match s.images.cameraBucket with
  | some b => some b
  | none => s.videos.cameraBucket

def merged (s : FolderScans β) : FolderMap β := s.images.folders.merge s.videos.folders

def cameraSummary (s : FolderScans β) : Option (FolderSummary β) :=
  s.cameraBucket.bind (fun b => s.merged.get? b)

def titled (s : FolderScans β) : List (FolderSummary β) :=
  let others := match s.cameraBucket with
    | some b => s.merged.remove b
    | none => s.merged
  others.filter (fun f => f.title.isSome)

def normal (s : FolderScans β) : Except Failure (List Folder) := do
  return (← s.titled.mapM (FolderSummary.folder .normal)).mergeSort byTitle

def allMedia (s : FolderScans β) (title : String) (normal : List Folder) : Option Folder :=
  (pickThumbnail s.images s.videos).map fun thumbnail =>
    { thumbnail := some thumbnail
      title := some title
      itemCount := (normal.map (·.itemCount)).foldr (· + ·) 0
        + (s.cameraSummary.map (·.count)).getD 0
      bucketId := allMediaBucket
      kind := .allMedia }

def listing (s : FolderScans β) (allMediaTitle : String) : Except Failure (List Folder) := do
  let normal ← s.normal
  let camera ← s.cameraSummary.mapM (FolderSummary.folder .camera)
  return camera.toList ++ (s.allMedia allMediaTitle normal).toList ++ normal

end FolderScans

structure FolderLister (σ β : Type) where
  index : MediaIndex σ β
  hasReadAccess : Act σ Bool
  camera : String
  cwd : Path
  allMediaTitle : String

def FolderLister.listRows {σ : Type} (l : FolderLister σ β) : Act σ (List Folder) := do
  let images := KindScan.ofRows l.cwd l.camera (← l.index.folders .image)
  let videos := KindScan.ofRows l.cwd l.camera (← l.index.folders .video)
  let scans : FolderScans β := ⟨images, videos⟩
  let listed ← Act.ofExcept (scans.listing l.allMediaTitle)
  Act.log ⟨Log.debug, "mediashelf.folders", "listed %d folders (camera=%s)",
    [.int listed.length, .text ((scans.cameraBucket.map Label.shown).getD "None")], none⟩
  return listed

/-- The folders; none without read access or when the index cannot be read. -/
def FolderLister.list {σ : Type} (l : FolderLister σ β) : Act σ (List Folder) := do
  if ← l.hasReadAccess then
    Act.recover l.listRows (fun f => f.cause == .indexQuery) fun f => do
      Act.log ⟨Log.error, "mediashelf.folders",
        "Folder listing failed; returning no folders", [], some f⟩
      return []
  else return []

end MediaCatalog
