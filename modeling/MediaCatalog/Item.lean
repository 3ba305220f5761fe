import MediaCatalog.Failure

namespace MediaCatalog

inductive Kind where
  | image
  | video
  deriving DecidableEq, Repr

def Kind.word : Kind → String
  | .image => "image"
  | .video => "video"

/-- A width or height of zero, or a size of zero or less, is unknown. -/
structure Item where
  location : String
  mimeType : String
  takenAt : Int := 0
  width : Int := 0
  height : Int := 0
  size : Int := 0
  bucketId : Option String := none
  caption : Option String := none
  deriving DecidableEq, Repr

def Item.isPopulated (i : Item) : Bool := 0 < i.width && 0 < i.height && 0 < i.size

inductive FolderKind where
  | normal
  | camera
  | allMedia
  deriving DecidableEq, Repr

def FolderKind.word : FolderKind → String
  | .normal => "normal"
  | .camera => "camera"
  | .allMedia => "all_media"

structure Folder where
  thumbnail : Option String := none
  title : Option String := none
  itemCount : Int
  bucketId : String
  kind : FolderKind := .normal
  deriving DecidableEq, Repr

def allMediaBucket : String := "org.mediashelf.ALL_MEDIA"

inductive EditKind where
  | rotate
  | mirror
  | flip
  | crop
  deriving DecidableEq, Repr

def EditKind.word : EditKind → String
  | .rotate => "rotate"
  | .mirror => "mirror"
  | .flip => "flip"
  | .crop => "crop"

end MediaCatalog
