import Mathlib.Data.Nat.Pairing
import MediaCatalog.Proofs.Repository.Answers
import MediaCatalog.Proofs.Repository.Session

namespace MediaCatalog.Session

variable {σ ρ α : Type} {s s' : Session σ α} {e : Entrusted σ α} {r₀ : Run σ} {k n i : Nat}
  {events : Nat → Event σ α}

section Progress

/-- Every job's turn comes again and again. -/
def Fair (events : Nat → Event σ α) : Prop :=
  ∀ ticket n, ∃ m, n ≤ m ∧ events m = .advance ticket

def DoneBefore (s : Session σ α) (k : Nat) : Prop :=
  ∀ (k' : Nat) e, k' < k → s.pool.jobs[k']? = some e → e.progress.isDone

theorem Continues.isDone (h : s.Continues s') {e' : Entrusted σ α}
    (he : s.pool.jobs[k]? = some e) (he' : s'.pool.jobs[k]? = some e') (hdone : e.progress.isDone) :
    e'.progress.isDone := by
  obtain ⟨e'', he'', -, hstage⟩ := h.jobs k e he
  obtain rfl := Option.some.inj (he''.symm.trans he')
  have hle := stage_le e''.progress
  rw [isDone_iff] at hdone ⊢
  omega

theorem Continues.doneBefore (h : s.Continues s') (hk : k ≤ s.pool.jobs.length)
    (hbefore : s.DoneBefore k) : s'.DoneBefore k := by
  intro k' e' hlt he'
  have he := List.getElem?_eq_getElem (Nat.lt_of_lt_of_le hlt hk)
  exact h.isDone he he' (hbefore k' _ hlt he)

theorem Sound.isReady (h : s.Sound r₀) (hworkers : 0 < s.pool.workers) (hbefore : s.DoneBefore k)
    (he : s.pool.jobs[k]? = some e) (hdone : e.progress.isDone = false) : s.pool.IsReady k e := by
  refine ⟨hdone, fun hwaiting => ?_⟩
  have hidle : s.pool.active = 0 := by
    rw [Pool.active, List.countP_eq_zero]
    intro e' hmem hactive
    obtain ⟨k', he'⟩ := List.mem_iff_getElem?.1 hmem
    obtain ⟨hstarted, hunfinished⟩ := isActive_iff.1 hactive
    by_cases hk : k' < k
    · exact hunfinished (isDone_iff.1 (hbefore k' e' hk he'))
    · have hwaiting' := h.inOrder k k' e e' (Nat.le_of_not_lt hk) he he' hwaiting
      exact hstarted (isWaiting_iff.1 hwaiting')
  rw [Pool.isNext, hidle, decide_eq_true hworkers, Bool.true_and, List.all_eq_true]
  intro e' hmem
  obtain ⟨k', hk', he'⟩ := List.mem_iff_getElem.1 hmem
  rw [List.length_take] at hk'
  have hget : s.pool.jobs[k']? = some e' := by
    rw [← he', List.getElem_take, List.getElem?_eq_getElem]
  have hstage := isDone_iff.1 (hbefore k' e' (by omega) hget)
  rw [Bool.not_eq_true', Bool.eq_false_iff, ne_eq, isWaiting_iff, hstage]
  decide

variable (hs : ∀ n, (s.after events n).Sound r₀) (hworkers : 0 < s.pool.workers)
  (hfair : Fair events)
include hs hworkers hfair

/-- The first job that is not done ends. What is left of it counts its steps. -/
theorem exists_isDone (left : Nat) (hbefore : (s.after events n).DoneBefore k)
    (he : (s.after events n).pool.jobs[k]? = some e) (hleft : 4 ≤ stage e.progress + left) :
    ∃ m e', n ≤ m ∧ (s.after events m).pool.jobs[k]? = some e' ∧ e'.progress.isDone := by
  induction left generalizing n e with
  | zero =>
      have hle := stage_le e.progress
      exact ⟨n, e, Nat.le_refl n, he, isDone_iff.2 (by omega)⟩
  | succ left ih =>
      obtain ⟨m, hm, hturn⟩ := hfair k n
      have hcontinues := continues_after s events hm
      obtain ⟨e', he', -, hstage⟩ := hcontinues.jobs k e he
      have hlength : k ≤ (s.after events n).pool.jobs.length :=
        Nat.le_of_lt (List.getElem?_eq_some_iff.1 he).1
      have hbefore' := hcontinues.doneBefore hlength hbefore
      cases hdone : e'.progress.isDone with
      | true => exact ⟨m, e', hm, he', hdone⟩
      | false =>
          have hworkers' : 0 < (s.after events m).pool.workers := by
            rw [(continues_after s events (Nat.zero_le m)).workers]
            exact hworkers
          have hready := (hs m).isReady hworkers' hbefore' he' hdone
          obtain ⟨g, d, r, hmoves, hstep⟩ := step_advance he' hready
          have he'' : (s.after events (m + 1)).pool.jobs[k]? = some { e' with progress := g } := by
            rw [after, hturn, hstep]
            dsimp only
            rw [getElem?_setProgress, he', Option.map_some, if_pos rfl]
          have hlength' : k ≤ (s.after events m).pool.jobs.length :=
            Nat.le_of_lt (List.getElem?_eq_some_iff.1 he').1
          have hbefore'' := (continues_after s events (Nat.le_succ m)).doneBefore hlength' hbefore'
          have hmoved := stage_moves hmoves
          obtain ⟨m', e₃, hm', he₃, hdone₃⟩ := ih hbefore'' he'' (by dsimp only; omega)
          exact ⟨m', e₃, by omega, he₃, hdone₃⟩

theorem exists_doneBefore (k : Nat) (hk : k ≤ (s.after events i).pool.jobs.length) :
    ∃ n, i ≤ n ∧ (s.after events n).DoneBefore k := by
  induction k with
  | zero => exact ⟨i, Nat.le_refl i, fun _ _ h => absurd h (Nat.not_lt_zero _)⟩
  | succ k ih =>
      obtain ⟨n, hn, hbefore⟩ := ih (Nat.le_of_lt hk)
      obtain ⟨e, he, -⟩ := (continues_after s events hn).jobs k _ (List.getElem?_eq_getElem hk)
      obtain ⟨m, e', hm, he', hdone⟩ := exists_isDone hs hworkers hfair 4 hbefore he (by omega)
      have hlength : k ≤ (s.after events n).pool.jobs.length :=
        Nat.le_of_lt (List.getElem?_eq_some_iff.1 he).1
      have hbefore' := (continues_after s events hm).doneBefore hlength hbefore
      refine ⟨m, Nat.le_trans hn hm, fun k' e₂ hlt he₂ => ?_⟩
      rcases Nat.lt_succ_iff_lt_or_eq.1 hlt with hlt | rfl
      · exact hbefore' k' e₂ hlt he₂
      · obtain rfl := Option.some.inj (he'.symm.trans he₂)
        exact hdone

end Progress

section Served

/-- What comes of a ticket that is given out at a moment of a session: under it these deeds are
done, once and in their order, and this is the result. -/
structure Served (s : Nat → Session σ α) (i ticket : Nat) (a : α) (deeds : List (Deed α)) :
    Prop where
  before : ∀ m, m ≤ i → (s m).deedsOf ticket = []
  soFar : ∀ m, (s m).deedsOf ticket <+: deeds
  result : ∀ m b, (s m).pool.result? ticket = some b ↔ b = a ∧ (s m).deedsOf ticket = deeds
  ends : ∃ n, ∀ m, n ≤ m → (s m).deedsOf ticket = deeds
  /-- Whoever waits for the pool to end waits for this ticket. -/
  settled : ∀ m, i < m → (s m).pool.isSettled → (s m).deedsOf ticket = deeds

/-- Each deed under the ticket does this to the run that the deeds before it have made. -/
def DoneBy (does : Deed α → Run σ → Run σ → Prop) (r₀ : Run σ) (s : Session σ α) (ticket : Nat) :
    Prop :=
  ∀ ds d ds', s.deeds = ds ++ (ticket, d) :: ds' → ∃ r r',
    Replays s.pool.jobs r₀ ds r ∧ does d r r' ∧ Replays s.pool.jobs r₀ (ds ++ [(ticket, d)]) r'

/-- A request is taken, and what its ticket stands for is the exchange with its own component and
its own callback. -/
structure Answered (c : Components σ ρ) (r₀ : Run σ) (s : Nat → Session σ Answer) (i : Nat)
    (q : Request σ ρ) (callback : Option (Answer → Act σ Unit)) (ticket : Nat)
    (out : Except Failure Answer) (a : Answer) (heard : Except Failure Unit) : Prop where
  submitted : (s i).pool.submit (q.job c callback) = .ok (ticket, (s (i + 1)).pool)
  concluded : q.Concludes out a
  served : Served s i ticket a (Request.exchange callback out a heard)
  done : ∀ m, DoneBy (q.Does c callback) r₀ (s m) ticket

theorem deedsOf_prefix (h : s.Continues s') (ticket : Nat) :
    s.deedsOf ticket <+: s'.deedsOf ticket :=
  (h.deeds.filter _).map _

theorem exists_served (hs : ∀ n, (s.after events n).Sound r₀) (hworkers : 0 < s.pool.workers)
    (hfair : Fair events) {j : Job σ α} (hsubmit : events i = .submit j)
    (hopen : (s.after events i).pool.isOpen) :
    ∃ ticket out heard,
      (s.after events i).pool.submit j = .ok (ticket, (s.after events (i + 1)).pool) ∧
      (∀ m e, (s.after events m).pool.jobs[ticket]? = some e → e.job = j) ∧
      Served (s.after events) i ticket (j.resultOf out) (j.life out heard) := by
  generalize hticket : (s.after events i).pool.jobs.length = ticket
  have hsubmitted : (s.after events i).pool.submit j =
      .ok (ticket, (s.after events (i + 1)).pool) := by
    rw [after, hsubmit, step_submit hopen, Pool.submit, if_pos hopen, hticket]
  have hnew : (s.after events (i + 1)).pool.jobs[ticket]? = some ⟨j, .waiting⟩ := by
    rw [after, hsubmit, step_submit hopen, ← hticket]
    exact List.getElem?_concat_length
  have hjob (m : Nat) (hm : i < m) :
      ∃ e, (s.after events m).pool.jobs[ticket]? = some e ∧ e.job = j := by
    obtain ⟨e, he, hjob, -⟩ := (continues_after s events hm).jobs ticket _ hnew
    exact ⟨e, he, hjob⟩
  have hnone (m : Nat) (hm : m ≤ i) : (s.after events m).pool.jobs[ticket]? = none := by
    cases hget : (s.after events m).pool.jobs[ticket]? with
    | none => rfl
    | some e =>
        obtain ⟨e', he', -⟩ := (continues_after s events hm).jobs ticket e hget
        have hlt := (List.getElem?_eq_some_iff.1 he').1
        omega
  -- fairness ends the job, and its deeds then are those that it does altogether
  have hcount : ticket + 1 ≤ (s.after events (i + 1)).pool.jobs.length :=
    (List.getElem?_eq_some_iff.1 hnew).1
  obtain ⟨n, hn, hdone⟩ := exists_doneBefore hs hworkers hfair (ticket + 1) hcount
  obtain ⟨e, he, rfl⟩ := hjob n hn
  have hlife := (hs n).lives ticket e he
  have hend := hdone ticket e (Nat.lt_succ_self ticket) he
  obtain ⟨out, heard, hall⟩ := hlife.exists_of_isDone hend
  have hlives (m : Nat) (hm : i < m) : ∃ g : Progress α,
      (s.after events m).pool.jobs[ticket]? = some ⟨e.job, g⟩ ∧
        e.job.Life g ((s.after events m).deedsOf ticket) := by
    obtain ⟨⟨j', g⟩, he', rfl⟩ := hjob m hm
    exact ⟨g, he', (hs m).lives ticket _ he'⟩
  have hstays (m : Nat) (hm : n ≤ m) :
      (s.after events m).deedsOf ticket = e.job.life out heard := by
    obtain ⟨g, -, hlife'⟩ := hlives m (Nat.lt_of_lt_of_le hn hm)
    have hprefix := deedsOf_prefix (continues_after s events hm) ticket
    rw [hall] at hprefix
    exact (hlife'.eq_of_life_prefix hprefix).symm
  have hsoFar (m : Nat) : (s.after events m).deedsOf ticket <+: e.job.life out heard := by
    rcases Nat.le_total m n with hm | hm
    · rw [← hall]
      exact deedsOf_prefix (continues_after s events hm) ticket
    · exact (hstays m hm).symm ▸ List.prefix_rfl
  have hsame (m : Nat) (e' : Entrusted σ α)
      (he' : (s.after events m).pool.jobs[ticket]? = some e') : e'.job = e.job := by
    by_cases hm : m ≤ i
    · rw [hnone m hm] at he'
      cases he'
    · obtain ⟨e'', he'', hjob''⟩ := hjob m (Nat.lt_of_not_le hm)
      obtain rfl := Option.some.inj (he''.symm.trans he')
      exact hjob''
  refine ⟨ticket, out, heard, hsubmitted, hsame, fun m hm => (hs m).fresh ticket (hnone m hm),
    hsoFar, fun m a => ?_, ⟨n, hstays⟩, fun m hm hsettled => ?_⟩
  · by_cases hm : m ≤ i
    · rw [Pool.result?, hnone m hm, (hs m).fresh ticket (hnone m hm)]
      simp [Job.life]
    · obtain ⟨g, he', hlife'⟩ := hlives m (Nat.lt_of_not_le hm)
      rw [Pool.result?, he']
      exact hlife'.result?_eq (hsoFar m)
  · obtain ⟨g, he', hlife'⟩ := hlives m hm
    have hg := List.all_eq_true.1 hsettled _ (List.mem_of_getElem? he')
    exact hlife'.eq_of_isDone hg (hsoFar m)

theorem exists_isSettled (hs : ∀ n, (s.after events n).Sound r₀) (hworkers : 0 < s.pool.workers)
    (hfair : Fair events) (hclosed : (s.after events i).pool.isOpen = false) :
    ∃ n, i ≤ n ∧ (s.after events n).pool.isSettled := by
  obtain ⟨n, hn, hdone⟩ := exists_doneBefore hs hworkers hfair _ (Nat.le_refl _)
  refine ⟨n, hn, List.all_eq_true.2 fun e hmem => ?_⟩
  obtain ⟨k, he⟩ := List.mem_iff_getElem?.1 hmem
  refine hdone k e ?_ he
  rw [← ((continues_after s events hn).closed hclosed).2]
  exact (List.getElem?_eq_some_iff.1 he).1

theorem Replays.split {jobs : List (Entrusted σ α)} {r : Run σ} {ds ds' : List (Nat × Deed α)}
    {ticket : Nat} {d : Deed α} (h : Replays jobs r₀ (ds ++ (ticket, d) :: ds') r) :
    ∃ r₁ r₂ e, Replays jobs r₀ ds r₁ ∧ jobs[ticket]? = some e ∧ e.job.Does d r₁ r₂ ∧
      Replays jobs r₀ (ds ++ [(ticket, d)]) r₂ := by
  induction ds' using List.reverseRecOn generalizing r with
  | nil =>
      generalize hall : ds ++ [(ticket, d)] = all at h ⊢
      cases h with
      | nil => exact absurd hall (List.append_ne_nil_of_right_ne_nil ds (List.cons_ne_nil _ _))
      | snoc hreplays he hdoes =>
          obtain ⟨rfl, hlast⟩ := List.append_inj' hall rfl
          cases hlast
          exact ⟨_, _, _, hreplays, he, hdoes, .snoc hreplays he hdoes⟩
  | append_singleton ds' last ih =>
      rw [← List.cons_append, ← List.append_assoc] at h
      generalize hall : ds ++ (ticket, d) :: ds' ++ [last] = all at h
      cases h with
      | nil => exact absurd hall (List.append_ne_nil_of_right_ne_nil _ (List.cons_ne_nil _ _))
      | snoc hreplays =>
          obtain ⟨rfl, -⟩ := List.append_inj' hall rfl
          exact ih hreplays

theorem Sound.doneBy (h : s.Sound r₀) {ticket : Nat} {j : Job σ α}
    (hjob : ∀ e, s.pool.jobs[ticket]? = some e → e.job = j) : DoneBy j.Does r₀ s ticket := by
  intro ds d ds' hds
  obtain ⟨r, r', e, hreplays, he, hdoes, hreplays'⟩ := Replays.split (hds ▸ h.replays)
  exact ⟨r, r', hreplays, hjob e he ▸ hdoes, hreplays'⟩

theorem DoneBy.mono {does does' : Deed α → Run σ → Run σ → Prop} {ticket : Nat}
    (h : DoneBy does r₀ s ticket) (himp : ∀ d r r', does d r r' → does' d r r') :
    DoneBy does' r₀ s ticket := by
  intro ds d ds' hds
  obtain ⟨r, r', hreplays, hdoes, hreplays'⟩ := h ds d ds' hds
  exact ⟨r, r', hreplays, himp d r r' hdoes, hreplays'⟩

/-- Every request before the closing is served: its component is asked once; its future completes
once, with what the component said or, when this failed, with what the request falls back on; a
callback that was given is told the same once before, whatever it says to it. The jobs' turns may
come in any way. The world is what these deeds make of it. Closing ends when all this is done; from
then on requests are refused, and nothing happens any more. -/
theorem serves_until_closed {workers : Nat} (hworkers : 0 < workers) (c : Components σ ρ)
    (r₀ : Run σ) {events : Nat → Event σ Answer} (hfair : Fair events) :
    let s := (opened workers r₀).after events
    (∀ n, Replays (s n).pool.jobs r₀ (s n).deeds (s n).run) ∧
    (∀ i q callback, events i = .ask c q callback → (∀ i' < i, events i' ≠ .close) →
      ∃ ticket out a heard, Answered c r₀ s i q callback ticket out a heard) ∧
    (∀ i, events i = .close →
      (∃ n, i < n ∧ (s n).pool.isSettled ∧ ∀ m, n ≤ m → s m = s n) ∧
      ∀ i' q callback, i < i' → events i' = .ask c q callback →
        (s i').pool.submit (q.job c callback) = .error Pool.closedToNew ∧ s (i' + 1) = s i') := by
  intro s
  have hs := (sound_opened workers r₀).after events
  refine ⟨fun n => (hs n).replays, fun i q callback hask hnever => ?_, fun i hclose => ⟨?_, ?_⟩⟩
  · obtain ⟨ticket, out, heard, hsubmitted, hjob, hserved⟩ :=
      exists_served hs hworkers hfair hask (isOpen_after workers r₀ hnever)
    rw [Request.life_job] at hserved
    have hdone (m : Nat) : DoneBy (q.Does c callback) r₀ (s m) ticket :=
      ((hs m).doneBy (hjob m)).mono fun _ _ _ => Request.does_job
    have hconcluded := Request.concludes_job c q callback out
    exact ⟨ticket, out, _, heard, hsubmitted, hconcluded, hserved, hdone⟩
  · have hclosed := isOpen_after_close (opened workers r₀) hclose (Nat.lt_succ_self i)
    obtain ⟨n, hn, hsettled⟩ := exists_isSettled hs hworkers hfair hclosed
    have hclosed' := isOpen_after_close (opened workers r₀) hclose hn
    exact ⟨n, hn, hsettled, fun m hm => after_of_isSettled hclosed' hsettled hm⟩
  · intro i' q callback hi hask
    have hclosed := isOpen_after_close (opened workers r₀) hclose hi
    have hrefused := step_submit_closed hclosed (q.job c callback)
    refine ⟨hrefused.1, ?_⟩
    change ((opened workers r₀).after events i').step (events i') = _
    rw [hask]
    exact hrefused.2

def rounds (events : List (Event σ α)) (n : Nat) : Event σ α :=
  (events[n]?).getD (.advance (Nat.unpair n).1)

theorem fair_rounds (events : List (Event σ α)) : Fair (rounds events) := by
  intro ticket n
  have hle := Nat.right_le_pair ticket (n + events.length)
  refine ⟨Nat.pair ticket (n + events.length), by omega, ?_⟩
  rw [rounds, List.getElem?_eq_none (by omega), Option.getD_none, Nat.unpair_pair]

/-- A failing request with a failing callback is answered all the same, though the pool is closed
at once. -/
theorem serves_until_closed_sample :
    let f : Failure := .ofValue "sample"
    let c : Components Unit Unit :=
      ⟨Act.fail f, fun _ => Act.fail f, Act.fail f, fun _ => Act.fail f, fun _ _ => Act.fail f⟩
    let events := rounds [.ask c .recent (some fun _ => Act.fail f), .close]
    let s := (opened 1 ⟨(), []⟩).after events
    0 < 1 ∧ Fair events ∧ ∃ ticket out a heard,
      Answered c ⟨(), []⟩ s 0 .recent (some fun _ => Act.fail f) ticket out a heard := by
  intro f c events s
  have hfair := fair_rounds [.ask c .recent (some fun _ => Act.fail f), .close]
  have hall := serves_until_closed (by decide : 0 < 1) c ⟨(), []⟩ hfair
  exact ⟨by decide, hfair, hall.2.1 0 .recent (some fun _ => Act.fail f) rfl
    fun i hi => absurd hi (Nat.not_lt_zero i)⟩

end Served

end MediaCatalog.Session
