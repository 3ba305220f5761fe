import MediaCatalog.Proofs.Repository.Pool

namespace MediaCatalog

variable {σ α β : Type}

/-- A job works, its callback is told the result, and its future completes with the result. -/
inductive Deed (α : Type) where
  | work (out : Except Failure α)
  | tell (a : α) (heard : Except Failure Unit)
  | complete (a : α)

namespace Job

def resultOf (j : Job σ α) : Except Failure α → α
  | .ok a => a
  | .error _ => j.fallback

/-- All deeds of a job, in their order. -/
def life (j : Job σ α) (out : Except Failure α) (heard : Except Failure Unit) : List (Deed α) :=
  [.work out] ++ (if j.callback.isSome then [.tell (j.resultOf out) heard] else []) ++
    [.complete (j.resultOf out)]

def noted (name template : String) (out : Except Failure β) (r : Run σ) : Run σ :=
  match out with
  | .ok _ => r
  | .error f => { r with log := r.log ++ [⟨Log.error, logger, template, [.text name], some f⟩] }

/-- What a deed makes of a run: the work and the callback do there what they do anywhere. -/
inductive Does (j : Job σ α) : Deed α → Run σ → Run σ → Prop
  | work {out : Except Failure α} {r r' : Run σ} (h : j.work.exec r = (out, r')) :
      Does j (.work out) r (noted j.name "%s failed; completing with fallback result" out r')
  | tell {callback : α → Act σ Unit} {a : α} {heard : Except Failure Unit} {r r' : Run σ}
      (hcallback : j.callback = some callback) (h : (callback a).exec r = (heard, r')) :
      Does j (.tell a heard) r (noted j.name "%s callback raised" heard r')
  | complete {a : α} {r : Run σ} : Does j (.complete a) r r

/-- One step of a job that may go on, and its deed, if there is one. -/
inductive Moves (j : Job σ α) :
    Progress α → Run σ → Progress α → Option (Deed α) → Run σ → Prop
  | take {r : Run σ} : Moves j .waiting r .taken none r
  | work {out : Except Failure α} {r r' : Run σ} (h : Does j (.work out) r r') :
      Moves j .taken r (.worked (j.resultOf out)) (some (.work out)) r'
  | pass {a : α} {r : Run σ} (h : j.callback = none) : Moves j (.worked a) r (.told a) none r
  | tell {a : α} {heard : Except Failure Unit} {r r' : Run σ} (h : Does j (.tell a heard) r r') :
      Moves j (.worked a) r (.told a) (some (.tell a heard)) r'
  | complete {a : α} {r : Run σ} : Moves j (.told a) r (.done a) (some (.complete a)) r

inductive Life (j : Job σ α) : Progress α → List (Deed α) → Prop
  | waiting : Life j .waiting []
  | taken : Life j .taken []
  | worked (out : Except Failure α) : Life j (.worked (j.resultOf out)) [.work out]
  | unheard {out : Except Failure α} (h : j.callback = none) :
      Life j (.told (j.resultOf out)) [.work out]
  | told {out : Except Failure α} {heard : Except Failure Unit} (h : j.callback.isSome) :
      Life j (.told (j.resultOf out)) [.work out, .tell (j.resultOf out) heard]
  | done (out : Except Failure α) (heard : Except Failure Unit) :
      Life j (.done (j.resultOf out)) (j.life out heard)

variable {j : Job σ α} {g g' : Progress α} {a : α} {r r' : Run σ} {ds : List (Deed α)}
  {d : Option (Deed α)} {out out' : Except Failure α} {heard heard' : Except Failure Unit}

theorem Does.callback_isSome (h : j.Does (.tell a heard) r r') : j.callback.isSome := by
  cases h with
  | tell hcallback => rw [hcallback, Option.isSome_some]

theorem Moves.does {deed : Deed α} (h : j.Moves g r g' (some deed) r') : j.Does deed r r' := by
  cases h with
  | work h => exact h
  | tell h => exact h
  | complete => exact .complete

theorem Moves.run_eq (h : j.Moves g r g' none r') : r' = r := by
  cases h <;> rfl

theorem Life.moves (hlife : j.Life g ds) (h : j.Moves g r g' d r') :
    j.Life g' (ds ++ d.toList) := by
  cases h with
  | take =>
      cases hlife
      exact .taken
  | work h =>
      cases hlife
      exact .worked _
  | pass h =>
      cases hlife
      exact .unheard h
  | tell h =>
      cases hlife
      exact .told h.callback_isSome
  | complete =>
      cases hlife with
      | @unheard out hnone =>
          have hdone := Life.done (j := j) out (.ok ())
          simp only [life, hnone] at hdone
          exact hdone
      | @told out heard hsome =>
          have hdone := Life.done (j := j) out heard
          rw [life, if_pos hsome] at hdone
          exact hdone

theorem length_life (out out' : Except Failure α) (heard heard' : Except Failure Unit) :
    (j.life out heard).length = (j.life out' heard').length := by
  simp only [life, List.length_append]
  split <;> rfl

theorem resultOf_eq_of_life_eq (h : j.life out heard = j.life out' heard') :
    j.resultOf out = j.resultOf out' := by
  obtain rfl : out = out' := Deed.work.inj (List.cons.inj h).1
  rfl

theorem Life.done_or_shorter (h : j.Life g ds) :
    (∃ out heard, g = .done (j.resultOf out) ∧ ds = j.life out heard) ∨
      g.result? = none ∧ ∀ out heard, ds.length < (j.life out heard).length := by
  cases h with
  | waiting | taken => exact .inr ⟨rfl, fun out heard => by simp [life]⟩
  | worked out | unheard => exact .inr ⟨rfl, fun out heard => by simp [life]⟩
  | told hsome => exact .inr ⟨rfl, fun out heard => by simp [life, hsome]⟩
  | done out heard => exact .inl ⟨out, heard, rfl, rfl⟩

theorem Life.exists_of_isDone (h : j.Life g ds) (hdone : g.isDone) :
    ∃ out heard, ds = j.life out heard := by
  rcases h.done_or_shorter with ⟨out, heard, -, hall⟩ | ⟨hnone, -⟩
  · exact ⟨out, heard, hall⟩
  · cases g <;> cases hdone
    cases hnone

theorem Life.eq_of_isDone (h : j.Life g ds) (hdone : g.isDone) (hds : ds <+: j.life out heard) :
    ds = j.life out heard := by
  obtain ⟨out', heard', rfl⟩ := h.exists_of_isDone hdone
  exact hds.eq_of_length (length_life out' out heard' heard)

theorem Life.eq_of_life_prefix (h : j.Life g ds) (hds : j.life out heard <+: ds) :
    j.life out heard = ds := by
  refine hds.eq_of_length_le ?_
  rcases h.done_or_shorter with ⟨out', heard', -, rfl⟩ | ⟨-, hshort⟩
  · exact Nat.le_of_eq (length_life out' out heard' heard)
  · exact Nat.le_of_lt (hshort out heard)

/-- The future has its result from the last deed on. -/
theorem Life.result?_eq (h : j.Life g ds) (hds : ds <+: j.life out heard) :
    g.result? = some a ↔ a = j.resultOf out ∧ ds = j.life out heard := by
  rcases h.done_or_shorter with ⟨out', heard', rfl, rfl⟩ | ⟨hnone, hshort⟩
  · have hall : j.life out' heard' = j.life out heard :=
      hds.eq_of_length (length_life out' out heard' heard)
    have hresult := resultOf_eq_of_life_eq hall
    constructor
    · intro h
      exact ⟨(Option.some.inj h).symm.trans hresult, hall⟩
    · rintro ⟨rfl, -⟩
      exact congrArg some hresult
  · constructor
    · intro h
      rw [hnone] at h
      cases h
    · rintro ⟨-, rfl⟩
      exact absurd (hshort out heard) (Nat.lt_irrefl _)

theorem exec_result (h : j.work.exec r = (out, r')) : j.result.exec r =
    (.ok (j.resultOf out), noted j.name "%s failed; completing with fallback result" out r') := by
  have hattempt : (Act.attempt j.work).exec r = (.ok out, r') := by rw [Act.exec_attempt, h]
  rw [result, Act.exec_bind_ok hattempt]
  cases out with
  | ok a => rfl
  | error f => exact Act.exec_bind_ok (Act.exec_log _ r') _

theorem exec_tell {callback : α → Act σ Unit} (hcallback : j.callback = some callback)
    (h : (callback a).exec r = (heard, r')) :
    (j.tell a).exec r = (.ok (), noted j.name "%s callback raised" heard r') := by
  have hattempt : (Act.attempt (callback a)).exec r = (.ok heard, r') := by
    rw [Act.exec_attempt, h]
  rw [tell, hcallback]
  refine (Act.exec_bind_ok hattempt _).trans ?_
  cases heard with
  | ok u => rfl
  | error f => exact Act.exec_log _ r'

end Job

namespace Entrusted

def deed? (e : Entrusted σ α) (r : Run σ) : Option (Deed α) :=
  match e.progress with
  | .waiting | .done _ => none
  | .taken => some (.work (e.job.work.exec r).1)
  | .worked a => e.job.callback.map fun callback => .tell a ((callback a).exec r).1
  | .told a => some (.complete a)

end Entrusted

namespace Pool

variable {p : Pool σ α} {e : Entrusted σ α} {r : Run σ} {ticket : Nat}

def IsReady (p : Pool σ α) (ticket : Nat) (e : Entrusted σ α) : Prop :=
  e.progress.isDone = false ∧ (e.progress.isWaiting → p.isNext ticket)

theorem isReady_of_taken (hdone : e.progress.isDone = false)
    (hwaiting : e.progress.isWaiting = false) : p.IsReady ticket e :=
  ⟨hdone, fun h => absurd (hwaiting.symm.trans h) Bool.false_ne_true⟩

theorem exec_advance_of_not (h : ∀ e, p.jobs[ticket]? = some e → ¬ p.IsReady ticket e) :
    (p.advance ticket).exec r = (.ok p, r) := by
  rw [advance]
  cases he : p.jobs[ticket]? with
  | none => rfl
  | some e =>
      have hready := h e he
      dsimp only
      cases hg : e.progress with
      | waiting =>
          have hnext : ¬ p.isNext ticket := fun hnext => hready ⟨by rw [hg]; rfl, fun _ => hnext⟩
          simp only [if_neg hnext, Act.exec_pure]
      | done a => rfl
      | taken | worked | told =>
          exact absurd (isReady_of_taken (by rw [hg]; rfl) (by rw [hg]; rfl)) hready

theorem exec_advance (he : p.jobs[ticket]? = some e) (h : p.IsReady ticket e) :
    ∃ g r', e.job.Moves e.progress r g (e.deed? r) r' ∧
      (p.advance ticket).exec r = (.ok (p.setProgress ticket g), r') := by
  obtain ⟨hdone, hnext⟩ := h
  rw [advance, he, Entrusted.deed?]
  dsimp only
  cases hg : e.progress with
  | waiting =>
      refine ⟨.taken, r, .take, ?_⟩
      simp only [if_pos (hnext (by rw [hg]; rfl)), Act.exec_pure]
  | taken =>
      have hwork : e.job.work.exec r = ((e.job.work.exec r).1, (e.job.work.exec r).2) := rfl
      exact ⟨_, _, .work (.work hwork), Act.exec_bind_ok (Job.exec_result hwork) _⟩
  | worked a =>
      cases hcallback : e.job.callback with
      | none =>
          have htell : (e.job.tell a).exec r = (.ok (), r) := by
            rw [Job.tell, hcallback]
            rfl
          exact ⟨_, _, .pass hcallback, Act.exec_bind_ok htell _⟩
      | some callback =>
          have hheard : (callback a).exec r = (((callback a).exec r).1, ((callback a).exec r).2) :=
            rfl
          exact ⟨_, _, .tell (.tell hcallback hheard),
            Act.exec_bind_ok (Job.exec_tell hcallback hheard) _⟩
  | told a => exact ⟨_, _, .complete, rfl⟩
  | done a =>
      rw [hg] at hdone
      cases hdone

end Pool

end MediaCatalog
