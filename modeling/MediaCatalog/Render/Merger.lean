import MediaCatalog.Collaborators
import MediaCatalog.Render.Map

namespace MediaCatalog

variable {σ ρ : Type}

structure RasterKit (σ ρ : Type) where
  size : ρ → Nat × Nat
  encode : ρ → Int → Act σ (List UInt8)
  close : ρ → Act σ Unit

/-- An edit makes a new raster, which whoever asked for it closes. -/
structure Edit (σ ρ : Type) where
  render : Act σ ρ

/-- Sets the edit of an item; an item that has one keeps its place. -/
def putEdit {α : Type} (i : Item) (edit : α) : List (Item × α) → List (Item × α)
  | [] => [(i, edit)]
  | (j, old) :: rest => if j = i then (j, edit) :: rest else (j, old) :: putEdit i edit rest

def renderedMime : String := "image/jpeg"

structure Merger (σ ρ : Type) where
  blobs : BlobStore σ
  kit : RasterKit σ ρ
  quality : Int

namespace Merger

/-- The edit whose key has the location; of several the last. -/
def editFor (overlays : List (Item × Edit σ ρ)) (location : String) : Option (Edit σ ρ) :=
  (overlays.reverse.find? (fun o => o.1.location = location)).map (·.2)

def store (m : Merger σ ρ) (i : Item) (raster : ρ) : Act σ Item := do
  let data ← m.kit.encode raster m.quality
  let location ← m.blobs.persist data renderedMime
  let size := m.kit.size raster
  return { location, mimeType := renderedMime, takenAt := i.takenAt, width := size.1,
           height := size.2, size := data.length, bucketId := i.bucketId, caption := i.caption }

/-- When the action fails in an expected way, the item stands for itself, and the log says why. -/
def orBase (i : Item) (act : Act σ Item) : Act σ Item :=
  Act.recover act Failure.isExpected fun f => do
    Act.log ⟨Log.warning, "mediashelf.render", "Failed to render %s, using base image: %s",
      [.text i.location, .failure f], none⟩
    return i

/-- Closing comes behind whatever is recovered from: a failure to close is not caught. -/
def renderOne (m : Merger σ ρ) (i : Item) (edit : Edit σ ρ) : Act σ Item := do
  match ← Act.attempt edit.render with
  | .error f => orBase i (Act.fail f)
  | .ok raster => Act.ensuring (orBase i (m.store i raster)) (m.kit.close raster)

def renderItem (m : Merger σ ρ) (overlays : List (Item × Edit σ ρ)) (i : Item) : Act σ Item :=
  match editFor overlays i.location with
  | none => return i
  | some edit => m.renderOne i edit

def render (m : Merger σ ρ) (items : List Item) (overlays : List (Item × Edit σ ρ)) :
    Act σ RenderMap :=
  items.foldlM (fun (map : RenderMap) i => do return map.put i (← m.renderItem overlays i)) {}

end Merger

end MediaCatalog
