import MediaCatalog.Completion
import MediaCatalog.Render.Merger
import MediaCatalog.Repository.Pool

namespace MediaCatalog

inductive Request (σ ρ : Type) where
  | folders
  | items (bucketId : String)
  | recent
  | populated (items : List Item)
  | rendered (items : List Item) (edits : List (Item × Edit σ ρ))

inductive Answer where
  | folders (fs : List Folder)
  | items (is : List Item)
  | recent (i : Option Item)
  | populated (b : Batch)
  | rendered (m : RenderMap)

structure Components (σ ρ : Type) where
  folders : Act σ (List Folder)
  items : String → Act σ (List Item)
  recent : Act σ (Option Item)
  complete : List Item → Act σ Batch
  render : List Item → List (Item × Edit σ ρ) → Act σ RenderMap

namespace Request

variable {σ ρ : Type}

def name : Request σ ρ → String
  | .folders => "get_folders"
  | .items _ => "get_media_in_bucket"
  | .recent => "get_most_recent_item"
  | .populated _ => "get_populated_media"
  | .rendered .. => "render_media"

def work (c : Components σ ρ) : Request σ ρ → Act σ Answer
  | .folders => do return .folders (← c.folders)
  | .items id => do return .items (← c.items id)
  | .recent => do return .recent (← c.recent)
  | .populated is => do return .populated (← c.complete is)
  | .rendered is edits => do return .rendered (← c.render is edits)

def fallback : Request σ ρ → Answer
  | .folders => .folders []
  | .items _ => .items []
  | .recent => .recent none
  | .populated is => .populated (.kept is)
  | .rendered is _ => .rendered (.identity is)

def job (c : Components σ ρ) (r : Request σ ρ) (callback : Option (Answer → Act σ Unit)) :
    Job σ Answer where
  name := r.name
  work := r.work c
  fallback := r.fallback
  callback

end Request

end MediaCatalog
