import MediaCatalog.Proofs.Effect
import MediaCatalog.Proofs.Render.Ledger
import MediaCatalog.Proofs.Render.Merger
import MediaCatalog.Proofs.Render.Recording

namespace MediaCatalog

open Act Raster

variable {σ ρ α : Type}

namespace Raster

/-- The raster that the action yields, with the number of events before it was handed out. -/
def handed (act : Act (Recorded Event σ) ρ) : Act (Recorded Event σ) (ρ × Nat) := do
  let raster ← act
  let n := (← getState).events.length
  tell (.handed n)
  return (raster, n)

def closing (close : ρ → Act σ Unit) (raster : ρ × Nat) : Act (Recorded Event σ) Unit := do
  tell (.closed raster.2)
  beneath (close raster.1)

theorem mirrorsBy_handed (act : Act σ ρ) : MirrorsBy Prod.fst (handed (beneath act)) act := by
  intro r
  rw [handed, exec_bind, exec_beneath]
  rcases act.exec r.withoutEvents with ⟨f | raster, r'⟩ <;> rfl

theorem mirrors_closing (close : ρ → Act σ Unit) (raster : ρ × Nat) :
    Mirrors (closing close raster) (close raster.1) :=
  mirrorsBy_id.1 ((mirrorsBy_id.2 (mirrors_beneath _)).tell _)

theorem events_handed (act : Act σ ρ) (r : Run (Recorded Event σ)) :
    (∃ f r', (handed (beneath act)).exec r = (.error f, r') ∧ r'.state.events = r.state.events) ∨
    ∃ raster r', (handed (beneath act)).exec r = (.ok (raster, r.state.events.length), r') ∧
      r'.state.events = r.state.events ++ [.handed r.state.events.length] := by
  rw [handed, exec_bind, exec_beneath]
  rcases act.exec r.withoutEvents with ⟨f | raster, r'⟩
  · exact .inl ⟨f, _, rfl, rfl⟩
  · exact .inr ⟨raster, _, rfl, rfl⟩

theorem exec_closing {close : ρ → Act σ Unit} (hclose : ∀ raster, Succeeds (close raster))
    (raster : ρ × Nat) (r : Run (Recorded Event σ)) :
    ∃ r', (closing close raster).exec r = (.ok (), r') ∧
      r'.state.events = r.state.events ++ [.closed raster.2] := by
  obtain ⟨⟨⟩, r', hexec⟩ := hclose raster.1 r.withoutEvents
  refine ⟨r'.beside (r.state.events ++ [.closed raster.2]), ?_, rfl⟩
  rw [closing, exec_bind_ok (exec_tell _ r), exec_beneath]
  exact congrArg (fun x : Except Failure Unit × Run σ => (x.1, x.2.beside _)) hexec

end Raster

namespace Merger

variable {m : Merger σ ρ} {overlays : List (Item × Edit σ ρ)} {i : Item}

def watchedEdit (edit : Edit σ ρ) : Edit (Recorded Event σ) (ρ × Nat) where
  render := do
    tell .asked
    handed (beneath edit.render)

def watched (m : Merger σ ρ) : Merger (Recorded Event σ) (ρ × Nat) where
  blobs := { persist := fun data mime => beneath (m.blobs.persist data mime) }
  kit :=
    { size := fun raster => m.kit.size raster.1
      encode := fun raster quality => beneath (m.kit.encode raster.1 quality)
      close := closing m.kit.close }
  quality := m.quality

def watchedOverlays (overlays : List (Item × Edit σ ρ)) :
    List (Item × Edit (Recorded Event σ) (ρ × Nat)) :=
  overlays.map fun o => (o.1, watchedEdit o.2)

def rasterEvents (m : Merger σ ρ) (items : List Item) (overlays : List (Item × Edit σ ρ))
    (r : Run σ) : List Event :=
  ((m.watched.render items (watchedOverlays overlays)).exec r.recording).2.state.events

theorem shadows_watched (m : Merger σ ρ) : Shadows m.watched m Prod.fst watchedEdit where
  edit edit := (mirrorsBy_handed edit.render).tell _
  store _ _ := (mirrors_beneath _).bind fun _ => (mirrors_beneath _).bind fun _ => mirrors_pure _
  close raster := mirrors_closing _ raster

/-- Recording what happens to rasters changes neither what becomes of the items nor what is left. -/
theorem mirrors_render (m : Merger σ ρ) (items : List Item) (overlays : List (Item × Edit σ ρ)) :
    Mirrors (m.watched.render items (watchedOverlays overlays)) (m.render items overlays) :=
  (shadows_watched m).render items overlays

def Silent (s s' : Recorded Event σ) : Prop := s'.events = s.events

instance : IsPreorder (Recorded Event σ) Silent where
  refl _ := rfl
  trans _ _ _ h h' := h'.trans h

theorem silent_store (i : Item) (raster : ρ × Nat) : Keeps Silent (m.watched.store i raster) :=
  have hbeneath {α : Type} (act : Act σ α) : Keeps Silent (beneath act) := fun _ => rfl
  (hbeneath _).bind fun _ => (hbeneath _).bind fun _ => keeps_pure _

/-- If nothing was open before, nothing is afterwards. -/
def Clears (s s' : Recorded Event σ) : Prop := Ledger 1 s.events [] → Ledger 1 s'.events []

instance : IsPreorder (Recorded Event σ) Clears where
  refl _ h := h
  trans _ _ _ h h' := h' ∘ h

theorem silent_orBase {act : Act (Recorded Event σ) Item} (h : Keeps Silent act) (i : Item) :
    Keeps Silent (orBase i act) :=
  h.recover fun _ => (keeps_log _).bind fun _ => keeps_pure i

theorem clears_renderOne (m : Merger σ ρ) (i : Item) (edit : Edit σ ρ) :
    Keeps Clears (m.watched.renderOne i (watchedEdit edit)) := by
  intro r hledger
  have hasked := hledger.snoc .asked
  have hrender : (watchedEdit edit).render.exec r = (handed (beneath edit.render)).exec
      (r.withoutEvents.beside (r.state.events ++ [.asked])) := exec_bind_ok (exec_tell _ r) _
  obtain ⟨f, r', hexec, hevents⟩ | ⟨raster, r', hexec, hevents⟩ :=
    events_handed edit.render (r.withoutEvents.beside (r.state.events ++ [.asked]))
  · rw [renderOne_of_error (hrender.trans hexec)]
    have hsilent : ((orBase i (fail f)).exec r').2.state.events = r'.state.events :=
      silent_orBase (keeps_fail f) i r'
    rw [hsilent, hevents]
    exact hasked
  · have hclosed := (hasked.snoc (.handed Nat.one_pos)).snoc (.closed [] _ [])
    rw [renderOne_of_rendered (hrender.trans hexec), run_ensuring]
    change Ledger 1 (((orBase i (m.watched.store i _)).exec r').2.state.events ++ [.closed _]) []
    rw [silent_orBase (silent_store i _) i r', hevents]
    exact hclosed

theorem keeps_renderItem (m : Merger σ ρ) (overlays : List (Item × Edit σ ρ)) (i : Item) :
    Keeps Clears (m.watched.renderItem (watchedOverlays overlays) i) := by
  rw [renderItem, watchedOverlays, ← lifted, editFor_lifted]
  cases editFor overlays i.location with
  | none => exact keeps_pure i
  | some edit => exact clears_renderOne m i edit

theorem ledger_rasterEvents (m : Merger σ ρ) (items : List Item)
    (overlays : List (Item × Edit σ ρ)) (r : Run σ) :
    Ledger 1 (m.rasterEvents items overlays r) [] := by
  have hkeeps : Keeps Clears (m.watched.render items (watchedOverlays overlays)) := by
    refine keeps_foldlM (fun map i => ?_) items ({} : RenderMap)
    exact (keeps_renderItem m overlays i).bind fun _ => keeps_pure _
  exact hkeeps r.recording .nil

end Merger

end MediaCatalog
