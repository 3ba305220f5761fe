import MediaCatalog.Edit.Request
import MediaCatalog.Item
import MediaCatalog.Json

namespace MediaCatalog

def Json.ofOption {α : Type} (enc : α → Json) : Option α → Json
  | some a => enc a
  | none => .null

def Json.ofText? : Option String → Json := ofOption .str

def Json.ofList {α : Type} (enc : α → Json) (xs : List α) : Json := .arr (xs.map enc)

def Item.fields (i : Item) : List (String × Json) :=
  [("location", .str i.location), ("mime_type", .str i.mimeType), ("taken_at", .int i.takenAt),
   ("width", .int i.width), ("height", .int i.height), ("size", .int i.size),
   ("bucket_id", Json.ofText? i.bucketId), ("caption", Json.ofText? i.caption)]

def Item.toJson (i : Item) : Json := .obj i.fields

def Folder.toJson (f : Folder) : Json :=
  .obj [("thumbnail", Json.ofText? f.thumbnail), ("title", Json.ofText? f.title),
    ("item_count", .int f.itemCount), ("bucket_id", .str f.bucketId), ("kind", .str f.kind.word)]

def EditOperation.toJson (o : EditOperation) : Json :=
  .obj [("op", .str o.kind.word), ("degrees", .float o.degrees),
    ("box", Json.ofOption (Json.ofList .int) o.box)]

def EditRequest.toJson (e : EditRequest) : Json :=
  .obj [("location", .str e.location),
    ("operations", Json.ofList EditOperation.toJson e.operations)]

def RenderRequest.toJson (r : RenderRequest) : Json :=
  .obj [("items", Json.ofList Item.toJson r.items),
    ("edits", Json.ofList EditRequest.toJson r.edits)]

def RenderedPair.toJson (p : RenderedPair) : Json :=
  .obj [("original", p.item.toJson), ("result", p.result.toJson)]

def Step.toJson : Step → Json
  | .field name => .str name
  | .item i => .int i

def FieldError.toJson (e : FieldError) : Json :=
  .obj [("type", .str e.flaw.code), ("loc", Json.ofList Step.toJson e.place)]

end MediaCatalog
