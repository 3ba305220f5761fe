import MediaCatalog.Proofs.Act
import MediaCatalog.Repository.Wiring

namespace MediaCatalog

variable {σ α : Type}

namespace Job

open Act

theorem succeeds_result (j : Job σ α) : Succeeds j.result := by
  refine (succeeds_attempt j.work).bind fun out => ?_
  cases out with
  | ok a => exact succeeds_pure a
  | error f => exact (succeeds_log _).bind fun _ => succeeds_pure j.fallback

theorem succeeds_tell (j : Job σ α) (a : α) : Succeeds (j.tell a) := by
  rw [tell]
  cases j.callback with
  | none => exact succeeds_pure ()
  | some callback =>
      refine (succeeds_attempt (callback a)).bind fun out => ?_
      cases out with
      | ok u => exact succeeds_pure ()
      | error f => exact succeeds_log _

end Job

namespace Pool

open Act

theorem succeeds_advance (p : Pool σ α) (ticket : Nat) : Succeeds (p.advance ticket) := by
  rw [advance]
  cases p.jobs[ticket]? with
  | none => exact succeeds_pure p
  | some e =>
      dsimp only
      cases e.progress with
      | waiting | told | done => exact succeeds_pure _
      | taken => exact e.job.succeeds_result.bind fun _ => succeeds_pure _
      | worked a => exact (e.job.succeeds_tell a).bind fun _ => succeeds_pure _

theorem succeeds_call {p : Pool σ α} (h : p.isOpen) (j : Job σ α) : Succeeds (p.call j) := by
  rw [call, submit, if_pos h]
  refine Succeeds.bind (fun r => ⟨_, _, exec_ofExcept _ r⟩) fun submitted => ?_
  exact (succeeds_foldlM succeeds_advance _ _).bind fun _ => succeeds_pure _

end Pool

theorem Repository.succeeds_ask {c : Repository} (h : c.pool.isOpen) (q : Request World Raster) :
    Act.Succeeds (c.ask q) :=
  (Pool.succeeds_call h _).bind fun _ => Act.succeeds_pure _

end MediaCatalog
