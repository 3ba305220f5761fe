import MediaCatalog.Image.Bytes
import MediaCatalog.Mime
import MediaCatalog.Path

namespace MediaCatalog

inductive Delivery where
  | made (data : Bytes) (type : String)
  | file (path : Path) (type : String)
  deriving DecidableEq, Repr

def Delivery.type : Delivery → String
  | .made _ type => type
  | .file _ type => type

def Delivery.ofFile (p : Path) : Delivery :=
  .file p ((Mime.typeOf? p.name).getD "application/octet-stream")

end MediaCatalog
