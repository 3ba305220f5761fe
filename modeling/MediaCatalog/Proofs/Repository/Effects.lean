import MediaCatalog.Proofs.Effect
import MediaCatalog.Proofs.Render.Merger
import MediaCatalog.Repository.Wiring

namespace MediaCatalog

open Act

variable {σ α ρ : Type} {R : σ → σ → Prop} [IsPreorder σ R]

namespace Job

/-- Neither the work nor the callback of a job breaks the relation. -/
structure Keeps (R : σ → σ → Prop) (j : Job σ α) : Prop where
  work : Act.Keeps R j.work
  callback : ∀ callback, j.callback = some callback → ∀ a, Act.Keeps R (callback a)

variable {j : Job σ α}

theorem Keeps.result (h : j.Keeps R) : Act.Keeps R j.result := by
  refine h.work.attempt.bind fun out => ?_
  cases out with
  | ok a => exact keeps_pure a
  | error f => exact (keeps_log _).bind fun _ => keeps_pure j.fallback

theorem Keeps.tell (h : j.Keeps R) (a : α) : Act.Keeps R (j.tell a) := by
  rw [Job.tell]
  cases hcallback : j.callback with
  | none => exact keeps_pure ()
  | some callback =>
      refine (h.callback callback hcallback a).attempt.bind fun out => ?_
      cases out with
      | ok u => exact keeps_pure ()
      | error f => exact keeps_log _

end Job

namespace Pool

def Keeps (R : σ → σ → Prop) (p : Pool σ α) : Prop := ∀ e ∈ p.jobs, e.job.Keeps R

variable {p : Pool σ α} {ticket : Nat} {j : Job σ α}

omit [IsPreorder σ R] in
theorem Keeps.setProgress (h : p.Keeps R) (ticket : Nat) (g : Progress α) :
    (p.setProgress ticket g).Keeps R := by
  intro e he
  obtain ⟨n, hn, rfl⟩ := List.mem_iff_getElem.1 he
  have hold : n < p.jobs.length := by simpa [Pool.setProgress] using hn
  have hjob : ((p.setProgress ticket g).jobs[n]).job = p.jobs[n].job := by
    simp only [Pool.setProgress, List.getElem_modify]
    split <;> rfl
  rw [hjob]
  exact h _ (List.getElem_mem hold)

omit [IsPreorder σ R] in
theorem Keeps.returns_advance (h : p.Keeps R) (ticket : Nat) :
    Returns (Keeps R) (p.advance ticket) := by
  rw [advance]
  cases p.jobs[ticket]? with
  | none => exact returns_pure h
  | some e =>
      dsimp only
      cases e.progress with
      | waiting =>
          refine returns_pure ?_
          split
          · exact h.setProgress ticket _
          · exact h
      | taken => exact (returns_any _).bind fun a _ => returns_pure (h.setProgress ticket _)
      | worked a => exact (returns_any _).bind fun _ _ => returns_pure (h.setProgress ticket _)
      | told a => exact returns_pure (h.setProgress ticket _)
      | done => exact returns_pure h

theorem Keeps.advance (h : p.Keeps R) (ticket : Nat) : Act.Keeps R (p.advance ticket) := by
  rw [Pool.advance]
  cases he : p.jobs[ticket]? with
  | none => exact keeps_pure p
  | some e =>
      have hjob := h e (List.mem_of_getElem? he)
      dsimp only
      cases e.progress with
      | waiting | told | done => exact keeps_pure _
      | taken => exact hjob.result.bind fun a => keeps_pure _
      | worked a => exact (hjob.tell a).bind fun _ => keeps_pure _

omit [IsPreorder σ R] in
theorem Keeps.returns_submit (h : p.Keeps R) (hj : j.Keeps R) :
    Returns (fun out => out.2.Keeps R) (Act.ofExcept (p.submit j) : Act σ (Nat × Pool σ α)) := by
  intro r out r' hout
  rw [exec_ofExcept] at hout
  have hsubmit := congrArg Prod.fst hout
  rw [submit] at hsubmit
  split at hsubmit
  · cases hsubmit
    intro e he
    rcases List.mem_append.1 he with he | he
    · exact h e he
    · obtain rfl := List.mem_singleton.1 he
      exact hj
  · cases hsubmit

theorem Keeps.call (h : p.Keeps R) (hj : j.Keeps R) :
    Act.Keeps R (p.call j) ∧ Returns (fun out => out.2.Keeps R) (p.call j) := by
  have hsubmit := h.returns_submit hj
  constructor
  · refine (keeps_ofExcept _).bind_returns hsubmit fun out hout => ?_
    exact (keeps_foldlM_of (P := Keeps R) (fun p t hp => hp.advance t)
      (fun p t hp => hp.returns_advance t) _ hout).bind fun p => keeps_pure _
  · refine hsubmit.bind fun out hout => ?_
    exact (returns_foldlM (P := Keeps R) (fun p t hp => hp.returns_advance t) _ hout).bind
      fun p hp => returns_pure hp

end Pool

/-- No component breaks the relation; rendering does not, if the edits do not. -/
structure Components.Keeps (R : σ → σ → Prop) (c : Components σ ρ) : Prop where
  folders : Act.Keeps R c.folders
  items : ∀ bucketId, Act.Keeps R (c.items bucketId)
  recent : Act.Keeps R c.recent
  complete : ∀ items, Act.Keeps R (c.complete items)
  render : ∀ items edits, (∀ e ∈ edits, Act.Keeps R e.2.render) → Act.Keeps R (c.render items edits)

def Request.Keeps (R : σ → σ → Prop) : Request σ ρ → Prop
  | .rendered _ edits => ∀ e ∈ edits, Act.Keeps R e.2.render
  | _ => True

theorem Components.Keeps.work {c : Components σ ρ} (h : c.Keeps R) {q : Request σ ρ}
    (hq : q.Keeps R) : Act.Keeps R (q.work c) := by
  cases q with
  | folders => exact h.folders.bind fun out => keeps_pure _
  | items bucketId => exact (h.items bucketId).bind fun out => keeps_pure _
  | recent => exact h.recent.bind fun out => keeps_pure _
  | populated items => exact (h.complete items).bind fun out => keeps_pure _
  | rendered items edits => exact (h.render items edits hq).bind fun out => keeps_pure _

namespace Repository

open World

structure Keeps (R : World → World → Prop) (c : Repository) : Prop where
  components : c.components.Keeps R
  pool : c.pool.Keeps R

theorem Keeps.ask {R : World → World → Prop} [IsPreorder World R] {c : Repository} (h : c.Keeps R)
    {q : Request World Raster} (hq : q.Keeps R) :
    Act.Keeps R (c.ask q) ∧ Returns (fun out => out.2.Keeps R) (c.ask q) := by
  have hjob : (q.job c.components none).Keeps R := ⟨h.components.work hq, fun _ hnone => by cases hnone⟩
  obtain ⟨hcall, hreturns⟩ := h.pool.call hjob
  exact ⟨hcall.bind fun out => keeps_pure _,
    hreturns.bind fun out hout => returns_pure ⟨h.components, hout⟩⟩

end Repository

namespace Merger

variable {m : Merger σ ρ}

theorem keeps_render (hencode : ∀ raster quality, Act.Keeps R (m.kit.encode raster quality))
    (hpersist : ∀ data, Act.Keeps R (m.blobs.persist data renderedMime))
    (hclose : ∀ raster, Act.Keeps R (m.kit.close raster)) {overlays : List (Item × Edit σ ρ)}
    (hedits : ∀ o ∈ overlays, Act.Keeps R o.2.render) (items : List Item) :
    Act.Keeps R (m.render items overlays) := by
  have hstore (i : Item) (raster : ρ) : Act.Keeps R (m.store i raster) :=
    (hencode raster _).bind fun data => (hpersist data).bind fun location => keeps_pure _
  have horBase (i : Item) {act : Act σ Item} (h : Act.Keeps R act) :
      Act.Keeps R (orBase i act) :=
    h.recover fun _ => (keeps_log _).bind fun _ => keeps_pure i
  have hone (i : Item) (edit : Edit σ ρ) (hedit : Act.Keeps R edit.render) :
      Act.Keeps R (m.renderOne i edit) := by
    refine hedit.attempt.bind fun out => ?_
    cases out with
    | error f => exact horBase i (Act.keeps_fail f)
    | ok raster => exact (horBase i (hstore i raster)).ensuring (hclose raster)
  have hitem (i : Item) : Act.Keeps R (m.renderItem overlays i) := by
    rw [renderItem]
    cases hedit : editFor overlays i.location with
    | none => exact keeps_pure i
    | some edit =>
        obtain ⟨o, ho, rfl⟩ := Option.map_eq_some_iff.1 hedit
        exact hone i o.2 (hedits o (List.mem_reverse.1 (List.mem_of_find?_eq_some ho)))
  refine keeps_foldlM (fun map i => ?_) items _
  exact (hitem i).bind fun j => keeps_pure _

end Merger

end MediaCatalog
