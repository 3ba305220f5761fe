import MediaCatalog.Locator

namespace MediaCatalog

/-- Labels that records can take for text, or refuse. -/
class Label (β : Type) where
  read : β → Except Flaw String
  shown : β → String

instance : Label String := ⟨.ok, id⟩

def Label.text? {β : Type} [Label β] (label : β) : Option String := (read label).toOption

/-- A row of the media index as folders see it. Bucket ids and titles are labels: text, or whatever
an index hands over instead. -/
structure FolderRow (β : Type) where
  path : String
  bucketId : Option β
  title : Option β
  takenAt : Int
  deriving DecidableEq, Repr

structure FolderSummary (β : Type) where
  bucketId : β
  title : Option β
  thumbnail : String
  count : Int := 0
  deriving DecidableEq, Repr

/-- Summaries in the order in which their buckets first came, one for each bucket. -/
abbrev FolderMap (β : Type) := List (FolderSummary β)

variable {β : Type} [DecidableEq β]

namespace FolderMap

def get? (b : β) (m : FolderMap β) : Option (FolderSummary β) := m.find? (fun s => s.bucketId = b)

def add (s : FolderSummary β) : FolderMap β → FolderMap β
  | [] => [s]
  | t :: m =>
    if t.bucketId = s.bucketId then { t with count := t.count + s.count } :: m else t :: add s m

def put (s : FolderSummary β) : FolderMap β → FolderMap β
  | [] => [s]
  | t :: m => if t.bucketId = s.bucketId then s :: m else t :: put s m

def ofList (l : List (FolderSummary β)) : FolderMap β := l.foldl (fun m s => put s m) []

def merge (first second : FolderMap β) : FolderMap β := second.foldl (fun m s => add s m) first

def remove (b : β) (m : FolderMap β) : FolderMap β := m.filter (fun s => s.bucketId ≠ b)

end FolderMap

structure KindScan (β : Type) where
  folders : FolderMap β := []
  cameraBucket : Option β := none
  thumbnail : Option String := none
  thumbnailTakenAt : Int := 0
  deriving Repr

namespace KindScan

def step (cwd : Path) (camera : String) (scan : KindScan β) (row : FolderRow β) : KindScan β :=
  match row.bucketId with
  | none => scan
  | some b =>
    let locator := Locator.ofPath cwd row.path
    let isNewest := scan.thumbnail.isNone || scan.thumbnailTakenAt < row.takenAt
    { folders := FolderMap.add ⟨b, row.title, locator, 1⟩ scan.folders
      cameraBucket :=
        if scan.cameraBucket.isNone && camera.toList.isPrefixOf row.path.toList then some b
        else scan.cameraBucket
      thumbnail := if isNewest then some locator else scan.thumbnail
      thumbnailTakenAt := if isNewest then row.takenAt else scan.thumbnailTakenAt }

def ofRows (cwd : Path) (camera : String) (rows : List (FolderRow β)) : KindScan β :=
  rows.foldl (step cwd camera) {}

end KindScan

/-- The newer of the two thumbnails; images keep a tie. -/
def pickThumbnail (images videos : KindScan β) : Option String :=
  if images.thumbnail.isNone || images.thumbnailTakenAt < videos.thumbnailTakenAt then
    videos.thumbnail
  else images.thumbnail

end MediaCatalog
