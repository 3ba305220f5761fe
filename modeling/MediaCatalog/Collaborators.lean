import MediaCatalog.Act
import MediaCatalog.Folder.Scan
import MediaCatalog.Item

namespace MediaCatalog

/-- A row of the media index as item listings see it. The orientation is in degrees. -/
structure ItemRow where
  path : String
  mimeType : String
  takenAt : Int
  width : Int
  height : Int
  size : Int
  orientation : Int := 0
  deriving DecidableEq, Repr

structure MediaIndex (σ β : Type) where
  folders : Kind → Act σ (List (FolderRow β))
  items : Kind → Option String → Act σ (List ItemRow)

structure Authority (σ : Type) where
  isLocal : String → Act σ Bool
  sizeOf : String → Act σ (Option Int)

structure Probe (σ : Type) where
  metadataQuery : String → Act σ (Option Int)
  resourceSize : String → Act σ Int
  dimensionsOf : String → String → Act σ (Int × Int)

structure BlobStore (σ : Type) where
  persist : List UInt8 → String → Act σ String

end MediaCatalog
