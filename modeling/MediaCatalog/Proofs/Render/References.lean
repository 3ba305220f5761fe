import Mathlib.Data.List.Perm.Subperm
import MediaCatalog.Proofs.Render.Merger
import MediaCatalog.Proofs.Render.Recording

namespace MediaCatalog

open Act

section IsLastBy

variable {α β : Type} {name : α → String} {f : α → Option β} {l : List α} {a b : α}

theorem eq_of_nodup_filterMap (h : (l.filterMap f).Nodup) {c : β} (ha : a ∈ l) (hb : b ∈ l)
    (hac : f a = some c) (hbc : f b = some c) : a = b := by
  induction l with
  | nil => exact absurd ha List.not_mem_nil
  | cons d l ih =>
      have hrest : (l.filterMap f).Nodup := h.sublist ((List.sublist_cons_self d l).filterMap f)
      have hhead {x : α} (hx : x ∈ l) (hxc : f x = some c) : f d ≠ some c := by
        intro hdc
        rw [List.filterMap_cons_some hdc] at h
        exact (List.nodup_cons.1 h).1 (List.mem_filterMap.2 ⟨x, hx, hxc⟩)
      rcases List.mem_cons.1 ha with rfl | ha'
      · rcases List.mem_cons.1 hb with rfl | hb'
        · rfl
        · exact absurd hac (hhead hb' hbc)
      · rcases List.mem_cons.1 hb with rfl | hb'
        · exact absurd hbc (hhead ha' hac)
        · exact ih hrest ha' hb'

/-- Every value shows at the last element of some name exactly when no element that has a value is
followed by another of its name. -/
theorem forall_isLastBy_iff_pairwise (h : (l.filterMap f).Nodup) :
    (∀ c ∈ l.filterMap f, ∃ a, IsLastBy name l a ∧ f a = some c) ↔
      l.Pairwise fun a b => (f a).isSome → name b ≠ name a := by
  -- From the end, since what is last of its name changes with each element that is added there.
  induction l using List.reverseRecOn with
  | nil => simp
  | append_singleton l d ih =>
      rw [List.filterMap_append] at h
      obtain ⟨hfront, -, hdisjoint⟩ := List.nodup_append.1 h
      have hnot {c : β} (hc : c ∈ l.filterMap f) : f d ≠ some c := by
        intro hd
        exact hdisjoint c hc c (List.mem_filterMap.2 ⟨d, List.mem_singleton_self d, hd⟩) rfl
      have hpairwise : (l ++ [d]).Pairwise (fun a b => (f a).isSome → name b ≠ name a) ↔
          l.Pairwise (fun a b => (f a).isSome → name b ≠ name a) ∧
            ∀ a ∈ l, (f a).isSome → name d ≠ name a := by
        simp [List.pairwise_append]
      rw [hpairwise, ← ih hfront, List.filterMap_append]
      constructor
      · intro hall
        have hbefore {c : β} (hc : c ∈ l.filterMap f) :
            ∃ a, (IsLastBy name l a ∧ name d ≠ name a) ∧ f a = some c := by
          obtain ⟨a, hlast, hac⟩ := hall c (List.mem_append_left _ hc)
          rcases isLastBy_concat.1 hlast with rfl | hlast
          · exact absurd hac (hnot hc)
          · exact ⟨a, hlast, hac⟩
        refine ⟨fun c hc => ?_, fun a ha hsome => ?_⟩
        · obtain ⟨a, ⟨hlast, -⟩, hac⟩ := hbefore hc
          exact ⟨a, hlast, hac⟩
        · obtain ⟨c, hac⟩ := Option.isSome_iff_exists.1 hsome
          obtain ⟨a', ⟨hlast, hne⟩, hac'⟩ := hbefore (List.mem_filterMap.2 ⟨a, ha, hac⟩)
          exact eq_of_nodup_filterMap hfront ha hlast.mem hac hac' ▸ hne
      · rintro ⟨hall, hlater⟩ c hc
        rcases List.mem_append.1 hc with hc | hc
        · obtain ⟨a, hlast, hac⟩ := hall c hc
          have hsome : (f a).isSome := Option.isSome_iff_exists.2 ⟨c, hac⟩
          exact ⟨a, isLastBy_concat.2 (.inr ⟨hlast, hlater a hlast.mem hsome⟩), hac⟩
        · obtain ⟨a, ha, hac⟩ := List.mem_filterMap.1 hc
          exact ⟨a, isLastBy_concat.2 (.inl (List.mem_singleton.1 ha)), hac⟩

end IsLastBy

/-- Where a result is that is not its original. -/
def replacedAt (p : Item × Item) : Option String := if p.2 = p.1 then none else some p.2.location

theorem replacedAt_self (i : Item) : replacedAt (i, i) = none := if_pos rfl

theorem replacedAt_of_ne {i x : Item} (h : x ≠ i) : replacedAt (i, x) = some x.location := if_neg h

def RenderMap.references (m : RenderMap) : List String := m.pairs.filterMap replacedAt

namespace Merger

variable {σ ρ : Type} {m : Merger σ ρ} {overlays : List (Item × Edit σ ρ)} {i x : Item}
  {items : List Item}

def quietEdit {ε : Type} (edit : Edit σ ρ) : Edit (Recorded ε σ) ρ := ⟨beneath edit.render⟩

/-- The merger that records how each storing of a blob ends. -/
def noting (m : Merger σ ρ) : Merger (Recorded (Except Failure String) σ) ρ where
  blobs := { persist := fun data mime => noted id (m.blobs.persist data mime) }
  kit :=
    { size := m.kit.size
      encode := fun raster quality => beneath (m.kit.encode raster quality)
      close := fun raster => beneath (m.kit.close raster) }
  quality := m.quality

def names (r : Run (Recorded (Except Failure String) σ)) : List String :=
  r.state.events.filterMap Except.toOption

/-- The names of the blobs that are stored while the items are replaced, one for each storing. -/
def stored (m : Merger σ ρ) (items : List Item) (overlays : List (Item × Edit σ ρ)) (r : Run σ) :
    List String :=
  names ((m.noting.render items (lifted quietEdit overlays)).exec r.recording).2

theorem shadows_noting (m : Merger σ ρ) : Shadows m.noting m id quietEdit where
  edit edit := mirrorsBy_id.2 (mirrors_beneath edit.render)
  store _ _ := (mirrors_beneath _).bind fun _ => (mirrors_noted id _).bind fun _ => mirrors_pure _
  close raster := mirrors_beneath (m.kit.close raster)

variable {r r' : Run (Recorded (Except Failure String) σ)}

theorem names_beside (r : Run σ) (events : List (Except Failure String))
    (out : Except Failure String) :
    names (r.beside (events ++ [out])) = names (r.beside events) ++ out.toOption.toList := by
  cases out <;> simp [names, Run.beside, Except.toOption]

theorem names_of_beneath {α : Type} {act : Act σ α} {out : Except Failure α}
    (h : (beneath act).exec r = (out, r')) : names r' = names r := by
  cases h
  rfl

theorem exec_store_noting (m : Merger σ ρ) (i : Item) (raster : ρ)
    (r : Run (Recorded (Except Failure String) σ)) :
    (∃ f r', (m.noting.store i raster).exec r = (.error f, r') ∧ names r' = names r ∧
      ∀ data location, ¬ m.StoresAt r.withoutEvents raster data location) ∨
    ∃ data location r', (m.noting.store i raster).exec r =
        (.ok (m.replacement i raster data location), r') ∧
      names r' = names r ++ [location] ∧ m.StoresAt r.withoutEvents raster data location := by
  rcases hencode : (m.kit.encode raster m.quality).exec r.withoutEvents with ⟨f | data, r₂⟩
  · refine .inl ⟨f, _, exec_bind_error (exec_beneath_of hencode) _, rfl, fun data location h => ?_⟩
    obtain ⟨r₂', r₃, hencode', -⟩ := h
    cases hencode.symm.trans hencode'
  · rcases hpersist : (m.blobs.persist data renderedMime).exec r₂ with ⟨f | location, r₃⟩
    · refine .inl ⟨f, _, (exec_bind_ok (exec_beneath_of hencode) _).trans
        (exec_bind_error (exec_noted_of hpersist) _), ?_, fun data' location h => ?_⟩
      · exact (names_beside _ _ _).trans (List.append_nil _)
      · obtain ⟨r₂', r₃', hencode', hpersist'⟩ := h
        obtain ⟨⟨⟩, rfl⟩ := Prod.mk.inj (hencode.symm.trans hencode')
        cases hpersist.symm.trans hpersist'
    · refine .inr ⟨data, location, _, (exec_bind_ok (exec_beneath_of hencode) _).trans
        (exec_bind_ok (exec_noted_of hpersist) _), ?_, r₂, r₃, hencode, hpersist⟩
      exact names_beside _ _ _

/-- When an action that failed has a result, the item stands for itself and nothing was stored in
between. -/
theorem orBase_of_failed {act : Act (Recorded (Except Failure String) σ) Item} {f : Failure}
    {r₁ : Run (Recorded (Except Failure String) σ)} (hact : act.exec r = (.error f, r₁))
    (h : (orBase i act).exec r = (.ok x, r')) : x = i ∧ names r' = names r₁ := by
  by_cases hf : f.isExpected
  · obtain ⟨r₂, hexec, hstate⟩ := orBase_of_error (i := i) hact hf
    cases hexec.symm.trans h
    exact ⟨rfl, congrArg (fun s => s.events.filterMap Except.toOption) hstate⟩
  · cases (orBase_of_unexpected hact hf).symm.trans h

/-- A turn that has a result stores one blob, where the result is, or none and keeps the item. -/
theorem isResult_of_noting (h : (m.noting.renderItem (lifted quietEdit overlays) i).exec r =
      (.ok x, r')) :
    m.IsResult overlays r.withoutEvents i x ∧
      (x = i ∧ names r' = names r ∨ names r' = names r ++ [x.location]) := by
  rw [renderItem, editFor_lifted] at h
  cases hedit : editFor overlays i.location with
  | none =>
      rw [hedit] at h
      cases h
      exact ⟨.unedited (editFor_eq_none.1 hedit), .inl ⟨rfl, rfl⟩⟩
  | some edit =>
      have hisEdit := isEditFor_of_editFor hedit
      rw [hedit] at h
      change (m.noting.renderOne i (quietEdit edit)).exec r = _ at h
      rcases hrender : edit.render.exec r.withoutEvents with ⟨f | raster, r₁⟩
      · rw [renderOne_of_error (exec_beneath_of hrender)] at h
        obtain ⟨rfl, hnames⟩ := orBase_of_failed (exec_fail f _) h
        exact ⟨.failed hisEdit (not_yields_of_error hrender), .inl ⟨rfl, hnames⟩⟩
      · rw [renderOne_of_rendered (exec_beneath_of hrender)] at h
        -- A turn that cannot close its raster has no result, even if it stored a blob.
        obtain ⟨r₂, hbase, hclose⟩ := exec_ensuring_eq_ok.1 h
        have hclosed : names r' = names r₂ := names_of_beneath hclose
        obtain ⟨f, r₃, hstore, hnames, hnot⟩ | ⟨data, location, r₃, hstore, hnames, hstores⟩ :=
          m.exec_store_noting i raster (r₁.beside r.state.events)
        · obtain ⟨rfl, hkept⟩ := orBase_of_failed hstore hbase
          refine ⟨.failed hisEdit fun raster' data location hy => ?_, .inl ⟨rfl, ?_⟩⟩
          · exact hnot data location ((yields_of_rendered hrender).1 hy).2
          · exact hclosed.trans (hkept.trans hnames)
        · cases (orBase_of_ok hstore).symm.trans hbase
          exact ⟨.replaced hisEdit ((yields_of_rendered hrender).2 ⟨rfl, hstores⟩),
            .inr (hclosed.trans hnames)⟩

/-- Item by item, the names that are given out are where the results are. -/
theorem results_of_noting {map map' : RenderMap}
    (h : (items.foldlM (fun (map : RenderMap) i => do
        return map.put i (← m.noting.renderItem (lifted quietEdit overlays) i)) map).exec r =
      (.ok map', r')) (hnew : ∀ i ∈ items, i.location ∉ names r') :
    ∃ ps, m.Results overlays r.withoutEvents items ps ∧
      map' = ps.foldl (fun map p => map.put p.1 p.2) map ∧
      names r' = names r ++ ps.filterMap replacedAt := by
  induction items generalizing r map with
  | nil =>
      cases h
      exact ⟨[], .nil, rfl, (List.append_nil _).symm⟩
  | cons i items ih =>
      rw [List.foldlM_cons] at h
      obtain ⟨map₁, r₁, hstep, hrest⟩ := exec_bind_eq_ok.1 h
      obtain ⟨x, r₂, hitem, hput⟩ := exec_bind_eq_ok.1 hstep
      cases hput
      obtain ⟨ps, hps, hmap, hnames⟩ := ih hrest fun j hj => hnew j (List.mem_cons_of_mem i hj)
      obtain ⟨hx, hstored⟩ := isResult_of_noting hitem
      have hnext : m.next overlays r.withoutEvents i = r₁.withoutEvents := by
        have hmirrors := (shadows_noting m).renderItem overlays i r
        rw [hitem] at hmirrors
        exact (congrArg Prod.snd hmirrors).symm
      refine ⟨(i, x) :: ps, .cons hx (hnext ▸ hps), hmap, ?_⟩
      obtain ⟨rfl, hkept⟩ | hadded := hstored
      · rw [hnames, hkept, List.filterMap_cons_none (replacedAt_self _)]
      · have hmem : x.location ∈ names r' := by
          rw [hnames, hadded]
          exact List.mem_append_left _ (List.mem_append_right _ (List.mem_singleton_self _))
        have hne : x ≠ i := by
          rintro rfl
          exact hnew x List.mem_cons_self hmem
        rw [hnames, hadded, List.filterMap_cons_some (replacedAt_of_ne hne), List.append_assoc]
        rfl

end Merger

theorem RenderMap.mem_references {ps : List (Item × Item)} {name : String} :
    name ∈ (RenderMap.ofPairs ps).references ↔
      ∃ p, IsLastBy RenderMap.locationOf ps p ∧ replacedAt p = some name := by
  rw [references, List.mem_filterMap]
  exact exists_congr fun p => and_congr_left fun _ => mem_ofPairs

theorem RenderMap.nodup_references {ps : List (Item × Item)} (h : (ps.filterMap replacedAt).Nodup) :
    (RenderMap.ofPairs ps).references.Nodup := by
  have hnodup : (ofPairs ps).pairs.Nodup := (nodup_locations_ofPairs ps).of_map _
  have hsub : (ofPairs ps).pairs.Subperm ps :=
    List.subperm_of_subset hnodup fun p hp => (mem_ofPairs.1 hp).mem
  obtain ⟨l, hperm, hsublist⟩ := hsub
  exact (hperm.filterMap replacedAt).nodup_iff.1 (h.sublist (hsublist.filterMap replacedAt))

namespace Merger

variable {σ ρ : Type} {m : Merger σ ρ} {overlays : List (Item × Edit σ ρ)} {items : List Item}
  {r r' : Run σ} {map : RenderMap}

/-- One blob is stored at each turn that replaces its item, and no other. The map refers to that of
the last item with a location, so that the stored blobs are those that it refers to, once each,
exactly when no item that was replaced is followed by one with the same location. -/
theorem stored_perm_references (h : (m.render items overlays).exec r = (.ok map, r'))
    (hnodup : (m.stored items overlays r).Nodup)
    (hnew : ∀ i ∈ items, i.location ∉ m.stored items overlays r) :
    Mirrors (m.noting.render items (lifted quietEdit overlays)) (m.render items overlays) ∧
    ∃ ps, m.Results overlays r items ps ∧ map = .ofPairs ps ∧
      m.stored items overlays r = ps.filterMap replacedAt ∧
      map.references.Nodup ∧
      (∀ name, name ∈ map.references ↔
        ∃ p, IsLastBy RenderMap.locationOf ps p ∧ replacedAt p = some name) ∧
      ((m.stored items overlays r).Perm map.references ↔
        ps.Pairwise fun p q => (replacedAt p).isSome → q.1.location ≠ p.1.location) := by
  have hmirrors := (shadows_noting m).render items overlays
  refine ⟨hmirrors, ?_⟩
  have hrun := hmirrors r.recording
  rw [Run.withoutEvents_recording, h] at hrun
  have hout : ((m.noting.render items (lifted quietEdit overlays)).exec r.recording).1 = .ok map :=
    congrArg Prod.fst hrun
  have hnoting : (m.noting.render items (lifted quietEdit overlays)).exec r.recording =
      (.ok map, ((m.noting.render items (lifted quietEdit overlays)).exec r.recording).2) :=
    Prod.ext hout rfl
  obtain ⟨ps, hps, hmap, hstored⟩ := results_of_noting hnoting hnew
  have hstored : m.stored items overlays r = ps.filterMap replacedAt := hstored
  rw [hstored] at hnodup ⊢
  have hmap : map = .ofPairs ps := hmap
  subst hmap
  have hreferences := RenderMap.nodup_references hnodup
  refine ⟨ps, hps, rfl, rfl, hreferences, fun name => RenderMap.mem_references, ?_⟩
  rw [List.perm_ext_iff_of_nodup hnodup hreferences, ← forall_isLastBy_iff_pairwise hnodup]
  refine forall_congr' fun name => ?_
  rw [RenderMap.mem_references]
  constructor
  · exact fun hiff => hiff.1
  · refine fun himp => ⟨himp, ?_⟩
    rintro ⟨p, hlast, hp⟩
    exact List.mem_filterMap.2 ⟨p, hlast.mem, hp⟩

/-- The item at `a` comes twice and is replaced both times, and the edit of `b` fails. -/
theorem stored_perm_references_sample :
    sampleMerger.stored [sampleItem "a" 1, sampleItem "b" 2, sampleItem "a" 3] sampleOverlays
      ⟨0, []⟩ = ["blob:0", "blob:1"] ∧
    ∃ map r' ps, (sampleMerger.render [sampleItem "a" 1, sampleItem "b" 2, sampleItem "a" 3]
        sampleOverlays).exec ⟨0, []⟩ = (.ok map, r') ∧
      map = .ofPairs ps ∧ ps.filterMap replacedAt = ["blob:0", "blob:1"] ∧
      map.references = ["blob:1"] ∧
      ¬ ps.Pairwise fun p q => (replacedAt p).isSome → q.1.location ≠ p.1.location := by
  have hstored : sampleMerger.stored [sampleItem "a" 1, sampleItem "b" 2, sampleItem "a" 3]
      sampleOverlays ⟨0, []⟩ = ["blob:0", "blob:1"] := rfl
  have hrun : (sampleMerger.render [sampleItem "a" 1, sampleItem "b" 2, sampleItem "a" 3]
      sampleOverlays).exec ⟨0, []⟩ = (.ok _, _) := rfl
  obtain ⟨-, ps, -, hmap, hps, -, -, hperm⟩ :=
    stored_perm_references hrun (by rw [hstored]; decide) (by rw [hstored]; decide)
  refine ⟨hstored, _, _, ps, rfl, hmap, hps.symm.trans hstored, rfl, fun hpairwise => ?_⟩
  have hlength := (hperm.2 hpairwise).length_eq
  rw [hstored] at hlength
  cases hlength

/-- A blob is stored for each of two items with one location, but only one is referred to. -/
theorem stored_unreferenced :
    sampleMerger.stored [sampleItem "a" 1, sampleItem "a" 2] sampleOverlays ⟨0, []⟩ =
      ["blob:0", "blob:1"] ∧
    ∃ map r', (sampleMerger.render [sampleItem "a" 1, sampleItem "a" 2] sampleOverlays).exec
        ⟨0, []⟩ = (.ok map, r') ∧ map.references = ["blob:1"] :=
  ⟨rfl, _, _, rfl, rfl⟩

end Merger

end MediaCatalog
