import MediaCatalog.Collaborators

namespace MediaCatalog

def isUpright (orientation : Int) : Bool := orientation == 0 || orientation == 180

def orientedDimensions (orientation width height : Int) : Int × Int :=
  if isUpright orientation then (width, height) else (height, width)

def ItemRow.item (cwd : Path) (bucketId : String) (r : ItemRow) : Item :=
  let d := orientedDimensions r.orientation r.width r.height
  { location := Locator.ofPath cwd r.path
    mimeType := r.mimeType
    takenAt := r.takenAt
    width := d.1
    height := d.2
    size := r.size
    bucketId := some bucketId }

def isNewer (a b : Item) : Bool := b.takenAt ≤ a.takenAt

/-- Images and videos together, newest first; of equally old items the images come first. -/
def newestFirst (images videos : List Item) : List Item := (images ++ videos).mergeSort isNewer

structure ItemLister (σ β : Type) where
  index : MediaIndex σ β
  hasReadAccess : Act σ Bool
  cwd : Path

namespace ItemLister

variable {σ β : Type}

def bucketFilter (bucketId : String) : Option String :=
  if bucketId = allMediaBucket then none else some bucketId

def query (l : ItemLister σ β) (kind : Kind) (bucketId : String) : Act σ (List Item) := do
  return (← l.index.items kind (bucketFilter bucketId)).map (ItemRow.item l.cwd bucketId)

def isIndexQuery (f : Failure) : Bool := f.cause == .indexQuery

/-- The items of one bucket, or of all; none without read access or when the index cannot be
read. -/
def list (l : ItemLister σ β) (bucketId : String) : Act σ (List Item) := do
  if ← l.hasReadAccess then
    let both := do
      let images ← l.query .image bucketId
      let videos ← l.query .video bucketId
      return newestFirst images videos
    Act.recover both isIndexQuery fun f => do
      Act.log ⟨Log.error, "mediashelf.items", "Listing bucket %s failed; returning no items",
        [.text bucketId], some f⟩
      return []
  else return []

def mostRecent (l : ItemLister σ β) : Act σ (Option Item) := do
  if ← l.hasReadAccess then
    let first := do return (← l.query .image allMediaBucket).head?
    Act.recover first isIndexQuery fun f => do
      Act.log ⟨Log.error, "mediashelf.items", "Most recent item lookup failed", [], some f⟩
      return none
  else return none

end ItemLister

end MediaCatalog
