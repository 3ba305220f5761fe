import MediaCatalog.Check.Basic
import MediaCatalog.Item
import MediaCatalog.Edit.Request

namespace MediaCatalog

open Check

def Item.read (mode : Mode) : Reader Item := record mode fun fields =>
  Item.mk <$> required "location" text fields <*> required "mime_type" text fields
    <*> withDefault "taken_at" 0 int fields <*> withDefault "width" 0 int fields
    <*> withDefault "height" 0 int fields <*> withDefault "size" 0 int fields
    <*> withDefault "bucket_id" none (optional text) fields
    <*> withDefault "caption" none (optional text) fields

/-- Items never change in place. -/
def Item.frozen (field : String) : Failure := .ofFields [⟨.frozen, [.field field]⟩]

def FolderKind.read : Reader FolderKind
  | .str "normal" => .ok .normal
  | .str "camera" => .ok .camera
  | .str "all_media" => .ok .allMedia
  | _ => flaw .member

def Folder.read (mode : Mode) : Reader Folder := record mode fun fields =>
  Folder.mk <$> withDefault "thumbnail" none (optional text) fields
    <*> withDefault "title" none (optional text) fields <*> required "item_count" int fields
    <*> required "bucket_id" text fields <*> withDefault "kind" .normal FolderKind.read fields

def EditKind.read : Reader EditKind
  | .str "rotate" => .ok .rotate
  | .str "mirror" => .ok .mirror
  | .str "flip" => .ok .flip
  | .str "crop" => .ok .crop
  | _ => flaw .choice

def EditOperation.read (mode : Mode) : Reader EditOperation := record mode fun fields =>
  EditOperation.mk <$> required "op" EditKind.read fields
    <*> withDefault "degrees" Binary64.zero float fields
    <*> withDefault "box" none (optional (listOf 4 int)) fields

def EditRequest.read (mode : Mode) : Reader EditRequest := record mode fun fields =>
  EditRequest.mk <$> required "location" text fields
    <*> withDefault "operations" [] (list (EditOperation.read mode)) fields

def RenderRequest.read (mode : Mode) : Reader RenderRequest := record mode fun fields =>
  RenderRequest.mk <$> required "items" (list (Item.read mode)) fields
    <*> withDefault "edits" [] (list (EditRequest.read mode)) fields

def RenderedPair.read (mode : Mode) : Reader RenderedPair := record mode fun fields =>
  RenderedPair.mk <$> required "original" (Item.read mode) fields
    <*> required "result" (Item.read mode) fields

end MediaCatalog
