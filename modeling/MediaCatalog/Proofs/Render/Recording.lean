import MediaCatalog.Proofs.Record
import MediaCatalog.Render.Merger

namespace MediaCatalog.Merger

open Act

variable {ε σ ρ ρ' : Type}

/-- The overlays with another edit in the place of each. -/
def lifted (lift : Edit σ ρ → Edit (Recorded ε σ) ρ') (overlays : List (Item × Edit σ ρ)) :
    List (Item × Edit (Recorded ε σ) ρ') :=
  overlays.map fun o => (o.1, lift o.2)

/-- The steps of the one merger do what those of the other do; its rasters may carry something
besides. -/
structure Shadows (m' : Merger (Recorded ε σ) ρ') (m : Merger σ ρ) (g : ρ' → ρ)
    (lift : Edit σ ρ → Edit (Recorded ε σ) ρ') : Prop where
  edit : ∀ edit, MirrorsBy g (lift edit).render edit.render
  store : ∀ i raster, Mirrors (m'.store i raster) (m.store i (g raster))
  close : ∀ raster, Mirrors (m'.kit.close raster) (m.kit.close (g raster))

variable {m' : Merger (Recorded ε σ) ρ'} {m : Merger σ ρ} {g : ρ' → ρ}
  {lift : Edit σ ρ → Edit (Recorded ε σ) ρ'}

theorem editFor_lifted (overlays : List (Item × Edit σ ρ)) (location : String) :
    editFor (lifted lift overlays) location = (editFor overlays location).map lift := by
  rw [editFor, editFor, lifted, ← List.map_reverse, List.find?_map, Option.map_map, Option.map_map]
  rfl

theorem mirrors_orBase {act' : Act (Recorded ε σ) Item} {act : Act σ Item} (h : Mirrors act' act)
    (i : Item) : Mirrors (orBase i act') (orBase i act) :=
  h.recover fun _ => (mirrors_log _).bind fun _ => mirrors_pure i

theorem Shadows.renderOne (h : Shadows m' m g lift) (i : Item) (edit : Edit σ ρ) :
    Mirrors (m'.renderOne i (lift edit)) (m.renderOne i edit) := by
  refine mirrorsBy_id.1 ((h.edit edit).attempt.bind fun out => ?_)
  cases out with
  | error f => exact mirrorsBy_id.2 (mirrors_orBase (mirrors_fail f) i)
  | ok raster =>
      exact (mirrorsBy_id.2 (mirrors_orBase (h.store i raster) i)).ensuring (h.close raster)

theorem Shadows.renderItem (h : Shadows m' m g lift) (overlays : List (Item × Edit σ ρ))
    (i : Item) :
    Mirrors (m'.renderItem (lifted lift overlays) i) (m.renderItem overlays i) := by
  rw [Merger.renderItem, Merger.renderItem, editFor_lifted]
  cases editFor overlays i.location with
  | none => exact mirrors_pure i
  | some edit => exact h.renderOne i edit

theorem Shadows.render (h : Shadows m' m g lift) (items : List Item)
    (overlays : List (Item × Edit σ ρ)) :
    Mirrors (m'.render items (lifted lift overlays)) (m.render items overlays) := by
  rw [Merger.render, Merger.render]
  refine mirrorsBy_id.1 (mirrorsBy_foldlM (g := id) (fun map i => ?_) items ({} : RenderMap))
  exact mirrorsBy_id.2 ((h.renderItem overlays i).bind fun _ => mirrors_pure _)

end MediaCatalog.Merger
