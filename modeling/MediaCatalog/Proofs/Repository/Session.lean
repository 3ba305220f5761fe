import MediaCatalog.Proofs.Repository.Deeds

namespace MediaCatalog

variable {σ ρ α : Type}

/-- A pool, the run that its jobs share, and what they have done, each deed with its ticket. -/
structure Session (σ α : Type) where
  pool : Pool σ α
  run : Run σ
  deeds : List (Nat × Deed α) := []

namespace Session

inductive Event (σ α : Type) where
  | submit (j : Job σ α)
  | close
  | advance (ticket : Nat)

def Event.ask (c : Components σ ρ) (q : Request σ ρ) (callback : Option (Answer → Act σ Unit)) :
    Event σ Answer :=
  .submit (q.job c callback)

def next (s : Session σ α) (ticket : Nat) : List (Nat × Deed α) :=
  ((s.pool.jobs[ticket]?).bind fun e => e.deed? s.run).toList.map fun d => (ticket, d)

def step (s : Session σ α) : Event σ α → Session σ α
  | .submit j =>
    match s.pool.submit j with
    | .ok (_, p) => { s with pool := p }
    | .error _ => s
  | .close => { s with pool := s.pool.close }
  | .advance ticket =>
    match (s.pool.advance ticket).exec s.run with
    | (.ok p, r) => ⟨p, r, s.deeds ++ s.next ticket⟩
    | (.error _, r) => { s with run := r }

variable {s s' s'' : Session σ α} {e : Entrusted σ α} {g : Progress α} {d : Option (Deed α)}
  {r r' r₀ : Run σ} {ds : List (Nat × Deed α)} {ticket k n m i : Nat} {events : Nat → Event σ α}

/-- The effects of a step, apart from the event that caused it. -/
inductive Becomes (s : Session σ α) : Session σ α → Prop
  | same : Becomes s s
  | accepted (j : Job σ α) (h : s.pool.isOpen) :
      Becomes s { s with pool := { s.pool with jobs := s.pool.jobs ++ [⟨j, .waiting⟩] } }
  | closed : Becomes s { s with pool := s.pool.close }
  | moved {ticket : Nat} {e : Entrusted σ α} {g : Progress α} {d : Option (Deed α)} {r : Run σ}
      (he : s.pool.jobs[ticket]? = some e) (hready : s.pool.IsReady ticket e)
      (h : e.job.Moves e.progress s.run g d r) :
      Becomes s ⟨s.pool.setProgress ticket g, r, s.deeds ++ d.toList.map fun d => (ticket, d)⟩

theorem deed?_of_not_ready (h : ¬ s.pool.IsReady ticket e) : e.deed? r = none := by
  rw [Entrusted.deed?]
  cases hg : e.progress with
  | waiting | done => rfl
  | taken | worked | told =>
      exact absurd (Pool.isReady_of_taken (by rw [hg]; rfl) (by rw [hg]; rfl)) h

theorem step_advance_of_not (h : ∀ e, s.pool.jobs[ticket]? = some e → ¬ s.pool.IsReady ticket e) :
    s.step (.advance ticket) = s := by
  have hnext : s.next ticket = [] := by
    rw [next]
    cases he : s.pool.jobs[ticket]? with
    | none => rfl
    | some e =>
        rw [Option.bind_some, deed?_of_not_ready (h e he)]
        rfl
  rw [step, Pool.exec_advance_of_not h]
  dsimp only
  rw [hnext, List.append_nil]

theorem step_advance (he : s.pool.jobs[ticket]? = some e) (h : s.pool.IsReady ticket e) :
    ∃ g d r, e.job.Moves e.progress s.run g d r ∧ s.step (.advance ticket) =
      ⟨s.pool.setProgress ticket g, r, s.deeds ++ d.toList.map fun d => (ticket, d)⟩ := by
  obtain ⟨g, r, hmoves, hexec⟩ := Pool.exec_advance (r := s.run) he h
  refine ⟨g, _, r, hmoves, ?_⟩
  rw [step, hexec]
  dsimp only
  rw [next, he, Option.bind_some]

theorem step_submit (h : s.pool.isOpen) (j : Job σ α) : s.step (.submit j) =
    { s with pool := { s.pool with jobs := s.pool.jobs ++ [⟨j, .waiting⟩] } } := by
  rw [step, Pool.submit, if_pos h]

theorem step_submit_closed (h : s.pool.isOpen = false) (j : Job σ α) :
    s.pool.submit j = .error Pool.closedToNew ∧ s.step (.submit j) = s := by
  have hrefused : s.pool.submit j = .error Pool.closedToNew := by
    rw [Pool.submit, if_neg (by rw [h]; exact Bool.false_ne_true)]
  refine ⟨hrefused, ?_⟩
  rw [step, hrefused]

theorem becomes_step (s : Session σ α) (event : Event σ α) : s.Becomes (s.step event) := by
  cases event with
  | submit j =>
      cases h : s.pool.isOpen with
      | true =>
          rw [step_submit h]
          exact .accepted j h
      | false =>
          rw [(step_submit_closed h j).2]
          exact .same
  | close => exact .closed
  | advance ticket =>
      by_cases h : ∃ e, s.pool.jobs[ticket]? = some e ∧ s.pool.IsReady ticket e
      · obtain ⟨e, he, hready⟩ := h
        obtain ⟨g, d, r, hmoves, hstep⟩ := step_advance he hready
        rw [hstep]
        exact .moved he hready hmoves
      · rw [step_advance_of_not fun e he hready => h ⟨e, he, hready⟩]
        exact .same

section Course

def stage : Progress α → Nat
  | .waiting => 0
  | .taken => 1
  | .worked _ => 2
  | .told _ => 3
  | .done _ => 4

theorem stage_moves {j : Job σ α} {g g' : Progress α} (h : j.Moves g r g' d r') :
    stage g' = stage g + 1 := by
  cases h <;> rfl

theorem isDone_iff {g : Progress α} : g.isDone = true ↔ stage g = 4 := by
  cases g <;> simp [Progress.isDone, stage]

theorem isWaiting_iff {g : Progress α} : g.isWaiting = true ↔ stage g = 0 := by
  cases g <;> simp [Progress.isWaiting, stage]

theorem isActive_iff {g : Progress α} : g.isActive = true ↔ stage g ≠ 0 ∧ stage g ≠ 4 := by
  cases g <;> simp [Progress.isActive, stage]

theorem stage_le (g : Progress α) : stage g ≤ 4 := by
  cases g <;> simp [stage]

theorem getElem?_setProgress (p : Pool σ α) (ticket k : Nat) (g : Progress α) :
    (p.setProgress ticket g).jobs[k]? =
      (p.jobs[k]?).map fun e => if ticket = k then { e with progress := g } else e := by
  rw [Pool.setProgress, List.getElem?_modify]
  rfl

/-- What a later moment of a session has kept of an earlier one. -/
structure Continues (s s' : Session σ α) : Prop where
  jobs : ∀ (k : Nat) e, s.pool.jobs[k]? = some e →
    ∃ e', s'.pool.jobs[k]? = some e' ∧ e'.job = e.job ∧ stage e.progress ≤ stage e'.progress
  deeds : s.deeds <+: s'.deeds
  closed : s.pool.isOpen = false →
    s'.pool.isOpen = false ∧ s'.pool.jobs.length = s.pool.jobs.length
  workers : s'.pool.workers = s.pool.workers

theorem Continues.refl (s : Session σ α) : s.Continues s where
  jobs _ e he := ⟨e, he, rfl, Nat.le_refl _⟩
  deeds := List.prefix_rfl
  closed h := ⟨h, rfl⟩
  workers := rfl

theorem Continues.trans (h : s.Continues s') (h' : s'.Continues s'') : s.Continues s'' where
  jobs k e he := by
    obtain ⟨e', he', hjob, hstage⟩ := h.jobs k e he
    obtain ⟨e'', he'', hjob', hstage'⟩ := h'.jobs k e' he'
    exact ⟨e'', he'', hjob'.trans hjob, Nat.le_trans hstage hstage'⟩
  deeds := h.deeds.trans h'.deeds
  closed hs := by
    obtain ⟨hs', hlength⟩ := h.closed hs
    obtain ⟨hs'', hlength'⟩ := h'.closed hs'
    exact ⟨hs'', hlength'.trans hlength⟩
  workers := h'.workers.trans h.workers

theorem Becomes.continues (h : s.Becomes s') : s.Continues s' := by
  cases h with
  | same => exact .refl s
  | accepted j hopen =>
      refine ⟨fun k e he => ⟨e, ?_, rfl, Nat.le_refl _⟩, List.prefix_rfl, fun hclosed => ?_, rfl⟩
      · exact List.getElem?_append_left (List.getElem?_eq_some_iff.1 he).1 |>.trans he
      · rw [hopen] at hclosed
        cases hclosed
  | closed => exact ⟨fun k e he => ⟨e, he, rfl, Nat.le_refl _⟩, List.prefix_rfl,
      fun _ => ⟨rfl, rfl⟩, rfl⟩
  | @moved ticket e g d r he hready hmoves =>
      refine ⟨fun k e' he' => ?_, List.prefix_append _ _, fun hclosed => ⟨hclosed, ?_⟩, rfl⟩
      · by_cases hk : ticket = k
        · subst hk
          obtain rfl := Option.some.inj (he.symm.trans he')
          refine ⟨{ e with progress := g }, ?_, rfl, ?_⟩
          · rw [getElem?_setProgress, he, Option.map_some, if_pos rfl]
          · rw [stage_moves hmoves]
            exact Nat.le_succ _
        · refine ⟨e', ?_, rfl, Nat.le_refl _⟩
          rw [getElem?_setProgress, he', Option.map_some, if_neg hk]
      · exact List.length_modify _ _ _

end Course

section Sound

def deedsOf (s : Session σ α) (ticket : Nat) : List (Deed α) :=
  (s.deeds.filter fun d => d.1 = ticket).map (·.2)

/-- The run that these deeds lead to, each one done by the job under its ticket. -/
inductive Replays (jobs : List (Entrusted σ α)) (r₀ : Run σ) : List (Nat × Deed α) → Run σ → Prop
  | nil : Replays jobs r₀ [] r₀
  | snoc {ds : List (Nat × Deed α)} {ticket : Nat} {e : Entrusted σ α} {d : Deed α} {r r' : Run σ}
      (h : Replays jobs r₀ ds r) (he : jobs[ticket]? = some e) (hdoes : e.job.Does d r r') :
      Replays jobs r₀ (ds ++ [(ticket, d)]) r'

structure Sound (r₀ : Run σ) (s : Session σ α) : Prop where
  lives : ∀ (k : Nat) e, s.pool.jobs[k]? = some e → e.job.Life e.progress (s.deedsOf k)
  fresh : ∀ k : Nat, s.pool.jobs[k]? = none → s.deedsOf k = []
  inOrder : ∀ (k k' : Nat) e e', k ≤ k' → s.pool.jobs[k]? = some e → s.pool.jobs[k']? = some e' →
    e.progress.isWaiting → e'.progress.isWaiting
  replays : Replays s.pool.jobs r₀ s.deeds s.run

theorem Replays.later {jobs jobs' : List (Entrusted σ α)} (h : Replays jobs r₀ ds r)
    (hjobs : ∀ (k : Nat) e, jobs[k]? = some e → ∃ e', jobs'[k]? = some e' ∧ e'.job = e.job) :
    Replays jobs' r₀ ds r := by
  induction h with
  | nil => exact .nil
  | snoc h he hdoes ih =>
      obtain ⟨e', he', hjob⟩ := hjobs _ _ he
      exact .snoc ih he' (hjob ▸ hdoes)

theorem Continues.replays (h : s.Continues s') (hreplays : Replays s.pool.jobs r₀ ds r) :
    Replays s'.pool.jobs r₀ ds r := by
  refine hreplays.later fun k e he => ?_
  obtain ⟨e', he', hjob, -⟩ := h.jobs k e he
  exact ⟨e', he', hjob⟩

theorem deedsOf_append (p : Pool σ α) (ds : List (Nat × Deed α)) (d : Option (Deed α)) :
    (Session.mk p r (ds ++ d.toList.map fun d => (ticket, d))).deedsOf k =
      (Session.mk p r ds).deedsOf k ++ if ticket = k then d.toList else [] := by
  rw [deedsOf, deedsOf, List.filter_append, List.map_append]
  cases d with
  | none => simp
  | some d => by_cases hk : ticket = k <;> simp [hk]

theorem getElem?_concat (jobs : List (Entrusted σ α)) (e : Entrusted σ α) (k : Nat) :
    (jobs ++ [e])[k]? = if k = jobs.length then some e else jobs[k]? := by
  split
  · rename_i hk
    subst hk
    exact List.getElem?_concat_length
  · rename_i hk
    by_cases hlt : k < jobs.length
    · exact List.getElem?_append_left hlt
    · have hbeyond : (jobs ++ [e]).length ≤ k := by
        rw [List.length_append, List.length_singleton]
        omega
      rw [List.getElem?_eq_none hbeyond, List.getElem?_eq_none (Nat.le_of_not_lt hlt)]

theorem Sound.becomes (h : s.Sound r₀) (hstep : s.Becomes s') : s'.Sound r₀ := by
  have hreplays := hstep.continues.replays h.replays
  cases hstep with
  | same => exact h
  | accepted j hopen =>
      refine ⟨fun k e he => ?_, fun k hk => ?_, fun k k' e e' hle he he' hwaiting => ?_, hreplays⟩
      · rw [getElem?_concat] at he
        split at he
        · cases he
          have hnone := h.fresh k (List.getElem?_eq_none (by omega))
          change Job.Life j .waiting (s.deedsOf k)
          rw [hnone]
          exact .waiting
        · exact h.lives k e he
      · rw [getElem?_concat] at hk
        split at hk
        · cases hk
        · exact h.fresh k hk
      · rw [getElem?_concat] at he he'
        split at he'
        · cases he'
          rfl
        · split at he
          · have hlt := (List.getElem?_eq_some_iff.1 he').1
            omega
          · exact h.inOrder k k' e e' hle he he' hwaiting
  | closed => exact ⟨h.lives, h.fresh, h.inOrder, hreplays⟩
  | @moved ticket e g d r he hready hmoves =>
      have hlife := (h.lives ticket e he).moves hmoves
      refine ⟨fun k e' he' => ?_, fun k hk => ?_, fun k k' e₁ e₂ hle he₁ he₂ hwaiting => ?_, ?_⟩
      · rw [getElem?_setProgress] at he'
        obtain ⟨e'', he'', rfl⟩ := Option.map_eq_some_iff.1 he'
        rw [deedsOf_append]
        by_cases hk : ticket = k
        · subst hk
          obtain rfl := Option.some.inj (he.symm.trans he'')
          rw [if_pos rfl, if_pos rfl]
          exact hlife
        · rw [if_neg hk, if_neg hk, List.append_nil]
          exact h.lives k e'' he''
      · rw [getElem?_setProgress, Option.map_eq_none_iff] at hk
        have hne : ticket ≠ k := by
          rintro rfl
          rw [he] at hk
          cases hk
        rw [deedsOf_append, if_neg hne, List.append_nil]
        exact h.fresh k hk
      · rw [getElem?_setProgress] at he₁ he₂
        obtain ⟨e₁, h₁, rfl⟩ := Option.map_eq_some_iff.1 he₁
        obtain ⟨e₂, h₂, rfl⟩ := Option.map_eq_some_iff.1 he₂
        have hstage : stage g ≠ 0 := by
          rw [stage_moves hmoves]
          exact Nat.succ_ne_zero _
        have hne : ticket ≠ k := by
          rintro rfl
          rw [if_pos rfl] at hwaiting
          exact hstage (isWaiting_iff.1 hwaiting)
        rw [if_neg hne] at hwaiting
        have hwaiting₂ := h.inOrder k k' e₁ e₂ hle h₁ h₂ hwaiting
        by_cases hk' : ticket = k'
        · subst hk'
          obtain rfl := Option.some.inj (he.symm.trans h₂)
          have htaken := (Bool.and_eq_true_iff.1 (hready.2 hwaiting₂)).2
          have hlt : k < ticket := Nat.lt_of_le_of_ne hle (Ne.symm hne)
          have hmem : e₁ ∈ s.pool.jobs.take ticket :=
            List.mem_of_getElem? ((List.getElem?_take_of_lt hlt).trans h₁)
          have hnot := List.all_eq_true.1 htaken e₁ hmem
          rw [hwaiting] at hnot
          cases hnot
        · rw [if_neg hk']
          exact hwaiting₂
      · cases d with
        | none =>
            obtain rfl := hmoves.run_eq
            rw [Option.toList_none, List.map_nil, List.append_nil]
            exact hreplays
        | some d =>
            have hticket : (s.pool.setProgress ticket g).jobs[ticket]? =
                some { e with progress := g } := by
              rw [getElem?_setProgress, he, Option.map_some, if_pos rfl]
            exact .snoc hreplays hticket hmoves.does

end Sound

section After

def opened (workers : Nat) (r₀ : Run σ) : Session σ α := ⟨{ workers }, r₀, []⟩

def after (s : Session σ α) (events : Nat → Event σ α) : Nat → Session σ α
  | 0 => s
  | n + 1 => (s.after events n).step (events n)

theorem sound_opened (workers : Nat) (r₀ : Run σ) :
    (opened workers r₀ : Session σ α).Sound r₀ where
  lives k e he := by cases he
  fresh k _ := rfl
  inOrder k k' e e' _ he := by cases he
  replays := .nil

theorem Sound.after (h : s.Sound r₀) (events : Nat → Event σ α) (n : Nat) :
    (s.after events n).Sound r₀ := by
  induction n with
  | zero => exact h
  | succ n ih => exact ih.becomes (becomes_step _ (events n))

theorem continues_after (s : Session σ α) (events : Nat → Event σ α) (h : n ≤ m) :
    (s.after events n).Continues (s.after events m) := by
  induction h with
  | refl => exact .refl _
  | step h ih => exact ih.trans (becomes_step _ _).continues

theorem isOpen_step_of_ne (s : Session σ α) {event : Event σ α} (h : event ≠ .close) :
    (s.step event).pool.isOpen = s.pool.isOpen := by
  cases event with
  | submit j =>
      cases hopen : s.pool.isOpen with
      | true =>
          rw [step_submit hopen]
          exact hopen
      | false =>
          rw [(step_submit_closed hopen j).2]
          exact hopen
  | close => exact absurd rfl h
  | advance ticket =>
      by_cases h : ∃ e, s.pool.jobs[ticket]? = some e ∧ s.pool.IsReady ticket e
      · obtain ⟨e, he, hready⟩ := h
        obtain ⟨g, d, r, -, hstep⟩ := step_advance he hready
        rw [hstep]
        rfl
      · rw [step_advance_of_not fun e he hready => h ⟨e, he, hready⟩]

theorem isOpen_after (workers : Nat) (r₀ : Run σ) (h : ∀ i < n, events i ≠ .close) :
    ((opened workers r₀).after events n).pool.isOpen = true := by
  induction n with
  | zero => rfl
  | succ n ih =>
      rw [after, isOpen_step_of_ne _ (h n (Nat.lt_succ_self n))]
      exact ih fun i hi => h i (Nat.lt_succ_of_lt hi)

theorem isOpen_after_close (s : Session σ α) (hclose : events i = .close) (h : i < n) :
    (s.after events n).pool.isOpen = false := by
  have hnext : (s.after events (i + 1)).pool.isOpen = false := by
    rw [after, hclose]
    rfl
  exact ((continues_after s events h).closed hnext).1

theorem step_of_isSettled (hclosed : s.pool.isOpen = false) (h : s.pool.isSettled)
    (event : Event σ α) : s.step event = s := by
  cases event with
  | submit j => exact (step_submit_closed hclosed j).2
  | close =>
      obtain ⟨⟨workers, isOpen, jobs⟩, run, deeds⟩ := s
      obtain rfl : isOpen = false := hclosed
      rfl
  | advance ticket =>
      refine step_advance_of_not fun e he hready => ?_
      have hdone := List.all_eq_true.1 h e (List.mem_of_getElem? he)
      rw [hready.1] at hdone
      cases hdone

theorem after_of_isSettled (hclosed : (s.after events n).pool.isOpen = false)
    (h : (s.after events n).pool.isSettled) (hm : n ≤ m) : s.after events m = s.after events n := by
  induction hm with
  | refl => rfl
  | step hm ih =>
      rw [after, ih]
      exact step_of_isSettled hclosed h _

end After

end Session

end MediaCatalog
