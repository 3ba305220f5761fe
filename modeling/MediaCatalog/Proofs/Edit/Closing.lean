import MediaCatalog.Proofs.Edit.Turning
import MediaCatalog.Proofs.Render.Closing
import MediaCatalog.Proofs.Render.Merger

namespace MediaCatalog

open Act Raster

variable {σ ρ : Type}

namespace Darkroom

section Stumbling

variable {d : Darkroom σ ρ} {raster raster' : ρ} {o : Operation} {operations : List Operation}
  {r r' : Run σ}

/-- The operations before one without a name succeed on the raster. -/
def StumblesFrom (d : Darkroom σ ρ) (raster : ρ) (operations : List Operation) (r : Run σ) : Prop :=
  ∃ front back, operations = front ++ [] :: back ∧
    ∃ raster' r', (d.run raster front).exec r = (.ok raster', r')

def Stumbles (d : Darkroom σ ρ) (operations : List Operation) (r : Run σ) : Prop :=
  ∃ front back, operations = front ++ [] :: back ∧
    ∃ raster r', (d.render front).exec r = (.ok raster, r')

theorem stumblesFrom_nameless : d.StumblesFrom raster ([] :: operations) r :=
  ⟨[], operations, rfl, raster, r, rfl⟩

theorem stumblesFrom_cons (hname : o ≠ []) :
    d.StumblesFrom raster (o :: operations) r ↔
      ∃ raster' r', (d.step raster o).exec r = (.ok raster', r') ∧
        d.StumblesFrom raster' operations r' := by
  constructor
  · rintro ⟨front, back, hoperations, last, r₂, hrun⟩
    cases front with
    | nil => exact absurd (List.cons.inj hoperations).1 hname
    | cons o' front =>
        obtain ⟨rfl, rfl⟩ := List.cons.inj hoperations
        rw [run, List.foldlM_cons, exec_bind_eq_ok] at hrun
        obtain ⟨raster', r', hstep, hrest⟩ := hrun
        exact ⟨raster', r', hstep, front, back, rfl, last, r₂, hrest⟩
  · rintro ⟨raster', r', hstep, front, back, rfl, last, r₂, hrun⟩
    exact ⟨o :: front, back, rfl, last, r₂, (exec_bind_ok hstep _).trans hrun⟩

theorem StumblesFrom.exec_run (h : d.StumblesFrom raster operations r) :
    ∃ r', (d.run raster operations).exec r = (.error Operation.tooShort, r') := by
  obtain ⟨front, back, rfl, last, r', hrun⟩ := h
  rw [run] at hrun
  refine ⟨r', ?_⟩
  rw [run, List.foldlM_append, exec_bind_ok hrun, List.foldlM_cons]
  exact exec_bind_error rfl _

theorem stumbles_iff : d.Stumbles operations r ↔
    ∃ raster r', d.develop.exec r = (.ok raster, r') ∧ d.StumblesFrom raster operations r' := by
  constructor
  · rintro ⟨front, back, hoperations, last, r₂, hrender⟩
    obtain ⟨raster, r', hdevelop, hrun⟩ := exec_bind_eq_ok.1 hrender
    exact ⟨raster, r', hdevelop, front, back, hoperations, last, r₂, hrun⟩
  · rintro ⟨raster, r', hdevelop, front, back, hoperations, last, r₂, hrun⟩
    exact ⟨front, back, hoperations, last, r₂, (exec_bind_ok hdevelop _).trans hrun⟩

theorem Stumbles.exec_render (h : d.Stumbles operations r) :
    ∃ r', (d.render operations).exec r = (.error Operation.tooShort, r') := by
  obtain ⟨raster, r', hdevelop, hrun⟩ := stumbles_iff.1 h
  obtain ⟨r'', hexec⟩ := hrun.exec_run
  exact ⟨r'', (exec_bind_ok hdevelop _).trans hexec⟩

end Stumbling

def watched (d : Darkroom σ ρ) : Darkroom (Recorded Event σ) (ρ × Nat) where
  develop := handed (beneath d.develop)
  apply t raster := handed (beneath (d.apply t raster.1))
  close := closing d.close

def rasterEvents (d : Darkroom σ ρ) (operations : List Operation) (r : Run σ) : List Event :=
  ((d.watched.render operations).exec r.recording).2.state.events

variable {d : Darkroom σ ρ} {raster : ρ × Nat} {o : Operation} {operations : List Operation}
  {r : Run (Recorded Event σ)}

theorem mirrorsBy_step (d : Darkroom σ ρ) (raster : ρ × Nat) (o : Operation) :
    MirrorsBy Prod.fst (d.watched.step raster o) (d.step raster.1 o) := by
  refine (mirrorsBy_id.2 (mirrors_ofExcept _)).bind fun _ => ?_
  refine MirrorsBy.ensuring ?_ (mirrors_closing _ raster)
  exact (mirrorsBy_id.2 (mirrors_ofExcept _)).bind fun t => mirrorsBy_handed _

/-- Recording what happens to rasters changes neither the outcome of the operations nor what is
left. -/
theorem mirrorsBy_render (d : Darkroom σ ρ) (operations : List Operation) :
    MirrorsBy Prod.fst (d.watched.render operations) (d.render operations) :=
  (mirrorsBy_handed d.develop).bind fun raster =>
    mirrorsBy_foldlM (mirrorsBy_step d) operations raster

theorem stumbles_watched (d : Darkroom σ ρ) (operations : List Operation) (r : Run σ) :
    d.watched.Stumbles operations r.recording ↔ d.Stumbles operations r := by
  refine exists_congr fun front => exists_congr fun back => and_congr_right fun _ => ?_
  have hmirrors := mirrorsBy_render d front r.recording
  change _ = (d.render front).exec r at hmirrors
  rw [← hmirrors]
  rcases (d.watched.render front).exec r.recording with ⟨f | raster, r'⟩
  · simp [Except.map]
  · simp [Except.map]

/-- How an operation goes on the one open raster. -/
inductive StepEnd (o : Operation) (r : Run (Recorded Event σ)) :
    Except Failure (ρ × Nat) × Run (Recorded Event σ) → Prop
  | nameless {f : Failure} (h : o = []) : StepEnd o r (.error f, r)
  | failed {f : Failure} {r' : Run (Recorded Event σ)} (h : o ≠ [])
      (hledger : Ledger 2 r'.state.events []) : StepEnd o r (.error f, r')
  | changed {raster : ρ × Nat} {r' : Run (Recorded Event σ)} (h : o ≠ [])
      (hledger : Ledger 2 r'.state.events [raster.2]) : StepEnd o r (.ok raster, r')

theorem events_changed (d : Darkroom σ ρ) (raster : ρ × Nat) (o : Operation)
    (r : Run (Recorded Event σ)) :
    (∃ f r', Act.exec (do d.watched.apply (← Act.ofExcept o.transformation) raster) r =
        (.error f, r') ∧ r'.state.events = r.state.events) ∨
    ∃ changed r', Act.exec (do d.watched.apply (← Act.ofExcept o.transformation) raster) r =
        (.ok (changed, r.state.events.length), r') ∧
      r'.state.events = r.state.events ++ [.handed r.state.events.length] := by
  rw [exec_bind, exec_ofExcept]
  cases o.transformation with
  | error f => exact .inl ⟨f, r, rfl, rfl⟩
  | ok t => exact events_handed (d.apply t raster.1) r

theorem stepEnd_step (hclose : ∀ raster, Succeeds (d.close raster)) (o : Operation)
    (h : Ledger 2 r.state.events [raster.2]) :
    StepEnd o r ((d.watched.step raster o).exec r) := by
  cases o with
  | nil => exact .nameless rfl
  | cons name arguments =>
      have hname : name :: arguments ≠ [] := List.cons_ne_nil _ _
      rw [step, Operation.name, exec_bind_ok (exec_ofExcept _ r)]
      dsimp only
      obtain ⟨f, r₁, hchanged, hsame⟩ | ⟨changed, r₁, hchanged, hhanded⟩ :=
        events_changed d raster (name :: arguments) r <;>
      obtain ⟨r', (hclosing : (d.watched.close raster).exec r₁ = _), hevents⟩ :=
        exec_closing hclose raster r₁
      · rw [exec_ensuring hchanged hclosing]
        refine .failed hname ?_
        rw [hevents, hsame]
        exact h.snoc (.closed [] _ [])
      · rw [exec_ensuring hchanged hclosing]
        refine .changed hname ?_
        rw [hevents, hhanded]
        exact (h.snoc (.handed (by simp))).snoc (.closed [_] _ [])

/-- How operations go that start from the one open raster. -/
inductive RunEnd (d : Darkroom σ ρ) (raster : ρ × Nat) (operations : List Operation)
    (r : Run (Recorded Event σ)) : Except Failure (ρ × Nat) × Run (Recorded Event σ) → Prop
  | returned {raster' : ρ × Nat} {r' : Run (Recorded Event σ)}
      (hledger : Ledger 2 r'.state.events [raster'.2]) :
      RunEnd d raster operations r (.ok raster', r')
  | failed {f : Failure} {r' : Run (Recorded Event σ)}
      (h : ¬ d.watched.StumblesFrom raster operations r)
      (hledger : Ledger 2 r'.state.events []) : RunEnd d raster operations r (.error f, r')
  | stumbled {f : Failure} {r' : Run (Recorded Event σ)} {n : Nat}
      (h : d.watched.StumblesFrom raster operations r)
      (hledger : Ledger 2 r'.state.events [n]) : RunEnd d raster operations r (.error f, r')

theorem RunEnd.cons {raster' : ρ × Nat} {r' : Run (Recorded Event σ)}
    {out : Except Failure (ρ × Nat) × Run (Recorded Event σ)} (ho : o ≠ [])
    (hstep : (d.watched.step raster o).exec r = (.ok raster', r'))
    (h : RunEnd d raster' operations r' out) : RunEnd d raster (o :: operations) r out := by
  have hiff : d.watched.StumblesFrom raster (o :: operations) r ↔
      d.watched.StumblesFrom raster' operations r' := by
    rw [stumblesFrom_cons ho, hstep]
    simp
  cases h with
  | returned hledger => exact .returned hledger
  | failed h hledger => exact .failed (mt hiff.1 h) hledger
  | stumbled h hledger => exact .stumbled (hiff.2 h) hledger

/-- The induction is on the operations that are left; one raster is open before each. -/
theorem runEnd_run (hclose : ∀ raster, Succeeds (d.close raster)) (operations : List Operation)
    (h : Ledger 2 r.state.events [raster.2]) :
    RunEnd d raster operations r ((d.watched.run raster operations).exec r) := by
  induction operations generalizing raster r with
  | nil => exact .returned h
  | cons o operations ih =>
      rw [run, List.foldlM_cons, exec_bind]
      have hend := stepEnd_step hclose o h
      generalize hstep : (d.watched.step raster o).exec r = out at hend
      cases hend with
      | nameless ho =>
          subst ho
          exact .stumbled stumblesFrom_nameless h
      | failed ho hledger =>
          refine .failed (fun hstumbles => ?_) hledger
          obtain ⟨raster', r', hok, -⟩ := (stumblesFrom_cons ho).1 hstumbles
          cases hstep.symm.trans hok
      | changed ho hledger => exact (ih hledger).cons ho hstep

/-- What all operations leave open: the raster that is returned, or on a failure nothing, unless it
is for want of a name. -/
theorem ledger_rasterEvents (hclose : ∀ raster, Succeeds (d.close raster))
    (operations : List Operation) (r : Run σ) :
    ∃ rasters, Ledger 2 (d.rasterEvents operations r) rasters ∧
      (∀ raster r', (d.watched.render operations).exec r.recording = (.ok raster, r') →
        rasters = [raster.2]) ∧
      (∀ f r', (d.watched.render operations).exec r.recording = (.error f, r') →
        ¬ d.Stumbles operations r → rasters = []) ∧
      (d.Stumbles operations r → ∃ n, rasters = [n]) := by
  rw [← stumbles_watched, stumbles_iff, rasterEvents, render, exec_bind]
  obtain ⟨f, r', (hdevelop : d.watched.develop.exec r.recording = _), hevents⟩ |
    ⟨raster, r', (hdevelop : d.watched.develop.exec r.recording = (.ok (raster, 0), r')),
      (hevents : r'.state.events = [] ++ [Event.handed 0])⟩ := events_handed d.develop r.recording
  · rw [hdevelop]
    exact ⟨[], hevents ▸ .nil, by simp, by simp, by simp⟩
  · have hledger : Ledger 2 r'.state.events [0] := hevents ▸ Ledger.nil.snoc (.handed (by simp))
    have hend : RunEnd d (raster, 0) operations r' _ := runEnd_run hclose operations hledger
    rw [hdevelop]
    dsimp only
    generalize hrun : (d.watched.run (raster, 0) operations).exec r' = out at hend
    cases hend with
    | returned hledger =>
        refine ⟨_, hledger, by simp, by simp, fun ⟨_, _, hsame, hstumbles⟩ => ?_⟩
        cases hsame
        obtain ⟨r'', hexec⟩ := hstumbles.exec_run
        cases hrun.symm.trans hexec
    | failed h hledger => exact ⟨_, hledger, by simp, by simp, by simp [h]⟩
    | stumbled h hledger => exact ⟨_, hledger, by simp, by simp [h], by simp⟩

end Darkroom

/-- Whatever fails, each raster that an edit hands out for an item is closed once, before the next
edit is asked for one. Operations close once each raster that they replace, so that the one that is
returned is open and no other, and on a failure none is. When they come to one without a name, they
fail with the raster at hand open. To record all this changes nothing. -/
theorem rasters_closed {τ π : Type} (m : Merger σ ρ) (items : List Item)
    (overlays : List (Item × Edit σ ρ)) (r : Run σ) (d : Darkroom τ π)
    (hclose : ∀ raster, Succeeds (d.close raster)) (operations : List Operation) (t : Run τ) :
    (Mirrors (m.watched.render items (Merger.watchedOverlays overlays)) (m.render items overlays) ∧
      Orderly 1 (m.rasterEvents items overlays r) ∧ Leaves (m.rasterEvents items overlays r) []) ∧
    MirrorsBy Prod.fst (d.watched.render operations) (d.render operations) ∧
    Orderly 2 (d.rasterEvents operations t) ∧
    (∀ raster n t', (d.watched.render operations).exec t.recording = (.ok (raster, n), t') →
      Leaves (d.rasterEvents operations t) [n]) ∧
    (∀ f t', (d.watched.render operations).exec t.recording = (.error f, t') →
      ¬ d.Stumbles operations t → Leaves (d.rasterEvents operations t) []) ∧
    (d.Stumbles operations t →
      (∃ t', (d.render operations).exec t = (.error Operation.tooShort, t')) ∧
      ∃ n, Leaves (d.rasterEvents operations t) [n]) := by
  have hmerged := m.ledger_rasterEvents items overlays r
  obtain ⟨rasters, hledger, hok, herror, hstumbles⟩ :=
    Darkroom.ledger_rasterEvents hclose operations t
  refine ⟨⟨m.mirrors_render items overlays, hmerged.orderly, hmerged.leaves⟩,
    d.mirrorsBy_render operations, hledger.orderly, fun raster n t' h => ?_, fun f t' h hnot => ?_,
    fun h => ⟨h.exec_render, ?_⟩⟩
  · exact hok _ t' h ▸ hledger.leaves
  · exact herror f t' h hnot ▸ hledger.leaves
  · obtain ⟨n, hn⟩ := hstumbles h
    exact ⟨n, hn ▸ hledger.leaves⟩

section Sample

theorem succeeds_close (source : Path) (raster : Raster) :
    Succeeds ((PictureEdit.darkroom source).close raster) := succeeds_pure ()

/-- The second of three edits hands out a raster that cannot be encoded. -/
theorem rasters_closed_sample :
    (∀ raster, Succeeds ((PictureEdit.darkroom widePath).close raster)) ∧
    Merger.sampleMerger.rasterEvents
      [Merger.sampleItem "a" 1, Merger.sampleItem "b" 2, Merger.sampleItem "a" 3]
      Merger.sampleOverlays ⟨0, []⟩ =
      [.asked, .handed 1, .closed 1, .asked, .handed 4, .closed 4, .asked, .handed 7, .closed 7] ∧
    Orderly 1 [.asked, .handed 1, .closed 1, .asked, .handed 4, .closed 4, .asked, .handed 7,
      .closed 7] ∧
    ∃ n, Leaves ((PictureEdit.darkroom widePath).rasterEvents [[.str "mirror"]] ⟨wideWorld, []⟩)
      [n] := by
  obtain ⟨⟨-, horderly, -⟩, hmirrors, -, hleaves, -⟩ := rasters_closed Merger.sampleMerger
    [Merger.sampleItem "a" 1, Merger.sampleItem "b" 2, Merger.sampleItem "a" 3]
    Merger.sampleOverlays ⟨0, []⟩ (PictureEdit.darkroom widePath) (succeeds_close widePath)
    [[.str "mirror"]] ⟨wideWorld, []⟩
  have hevents : Merger.sampleMerger.rasterEvents
      [Merger.sampleItem "a" 1, Merger.sampleItem "b" 2, Merger.sampleItem "a" 3]
      Merger.sampleOverlays ⟨0, []⟩ = [.asked, .handed 1, .closed 1, .asked, .handed 4, .closed 4,
        .asked, .handed 7, .closed 7] := by decide +kernel
  refine ⟨succeeds_close widePath, hevents, hevents ▸ horderly, ?_⟩
  obtain ⟨raster, hexec, -⟩ := decodes_wide.exec_render (r := ⟨wideWorld, []⟩)
    (rfl : wideOpened.displaySize = .ok (2, 1)) (.cons (.mirror []) .nil)
  rw [PictureEdit.edit] at hexec
  have hrender := hmirrors (Run.recording ⟨wideWorld, []⟩)
  rw [Run.withoutEvents_recording, hexec] at hrender
  rcases hwatched : ((PictureEdit.darkroom widePath).watched.render [[.str "mirror"]]).exec
    (Run.recording ⟨wideWorld, []⟩) with ⟨f | ⟨raster', n⟩, t⟩
  · rw [hwatched] at hrender
    cases hrender
  · exact ⟨n, hleaves raster' n t hwatched⟩

theorem stumbles_wide :
    (PictureEdit.darkroom widePath).Stumbles [[.str "mirror"], []] ⟨wideWorld, []⟩ := by
  obtain ⟨raster, hexec, -⟩ := decodes_wide.exec_render (r := ⟨wideWorld, []⟩)
    (rfl : wideOpened.displaySize = .ok (2, 1)) (.cons (.mirror []) .nil)
  exact ⟨[[.str "mirror"]], [], rfl, raster, _, hexec⟩

/-- When an operation has no name, the raster at hand stays open. -/
theorem rasters_left :
    (∃ t, ((PictureEdit.darkroom widePath).render [[.str "mirror"], []]).exec ⟨wideWorld, []⟩ =
      (.error Operation.tooShort, t)) ∧
    ∃ n, IsOpen
      ((PictureEdit.darkroom widePath).rasterEvents [[.str "mirror"], []] ⟨wideWorld, []⟩) n := by
  refine ⟨stumbles_wide.exec_render, ?_⟩
  obtain ⟨rasters, hledger, -, -, hstumbles⟩ := Darkroom.ledger_rasterEvents
    (succeeds_close widePath) [[.str "mirror"], []] ⟨wideWorld, []⟩
  obtain ⟨n, rfl⟩ := hstumbles stumbles_wide
  exact ⟨n, (hledger.leaves.isOpen_iff n).2 (by simp)⟩

end Sample

end MediaCatalog
