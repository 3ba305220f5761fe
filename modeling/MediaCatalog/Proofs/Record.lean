import MediaCatalog.Proofs.Act

namespace MediaCatalog

structure Recorded (ε σ : Type) where
  state : σ
  events : List ε

namespace Run

variable {ε σ : Type}

def withoutEvents (r : Run (Recorded ε σ)) : Run σ := ⟨r.state.state, r.log⟩

def recording (r : Run σ) : Run (Recorded ε σ) := ⟨⟨r.state, []⟩, r.log⟩

theorem withoutEvents_recording (r : Run σ) :
    (r.recording : Run (Recorded ε σ)).withoutEvents = r := rfl

def beside (r : Run σ) (events : List ε) : Run (Recorded ε σ) := ⟨⟨r.state, events⟩, r.log⟩

end Run

namespace Act

variable {ε σ α β : Type} {act : Act σ α} {act' : Act (Recorded ε σ) α}

/-- The action beside a record, to which it adds how it ended. -/
def noted (note : Except Failure α → ε) (act : Act σ α) : Act (Recorded ε σ) α := fun r =>
  let (out, r') := act.run r.withoutEvents
  (out, ⟨⟨r'.state, r.state.events ++ [note out]⟩, r'.log⟩)

/-- The action beside a record, which it leaves alone. -/
def beneath (act : Act σ α) : Act (Recorded ε σ) α := fun r =>
  let (out, r') := act.run r.withoutEvents
  (out, r'.beside r.state.events)

def tell (e : ε) : Act (Recorded ε σ) Unit := fun r =>
  (.ok (), r.withoutEvents.beside (r.state.events ++ [e]))

theorem exec_beneath (act : Act σ α) (r : Run (Recorded ε σ)) : (beneath act).exec r =
    ((act.exec r.withoutEvents).1, (act.exec r.withoutEvents).2.beside r.state.events) := rfl

theorem exec_beneath_of {act : Act σ α} {r : Run (Recorded ε σ)} {out : Except Failure α}
    {r' : Run σ} (h : act.exec r.withoutEvents = (out, r')) :
    (beneath act).exec r = (out, r'.beside r.state.events) := by
  rw [exec_beneath, h]

theorem exec_noted_of {note : Except Failure α → ε} {act : Act σ α} {r : Run (Recorded ε σ)}
    {out : Except Failure α} {r' : Run σ} (h : act.exec r.withoutEvents = (out, r')) :
    (noted note act).exec r = (out, r'.beside (r.state.events ++ [note out])) :=
  congrArg (fun x : Except Failure α × Run σ =>
    (x.1, x.2.beside (r.state.events ++ [note x.1]))) h

theorem exec_tell (e : ε) (r : Run (Recorded ε σ)) :
    (tell e).exec r = (.ok (), r.withoutEvents.beside (r.state.events ++ [e])) := rfl

/-- But for the record, the one action does what the other does. -/
def Mirrors (act' : Act (Recorded ε σ) α) (act : Act σ α) : Prop :=
  ∀ r, ((act'.exec r).1, (act'.exec r).2.withoutEvents) = act.exec r.withoutEvents

theorem mirrors_pure (a : α) : Mirrors (pure a : Act (Recorded ε σ) α) (pure a) := fun _ => rfl

theorem mirrors_log (line : Log.Record) : Mirrors (log line : Act (Recorded ε σ) Unit) (log line) :=
  fun _ => rfl

theorem mirrors_fail (f : Failure) : Mirrors (fail f : Act (Recorded ε σ) α) (fail f) :=
  fun _ => rfl

theorem mirrors_noted (note : Except Failure α → ε) (act : Act σ α) :
    Mirrors (noted note act) act := fun _ => rfl

theorem Mirrors.bind {next : α → Act σ β} {next' : α → Act (Recorded ε σ) β}
    (h : Mirrors act' act) (hnext : ∀ a, Mirrors (next' a) (next a)) :
    Mirrors (act' >>= next') (act >>= next) := by
  intro r
  have hr := h r
  rw [exec_bind, exec_bind, ← hr]
  rcases act'.exec r with ⟨f | a, r'⟩
  · rfl
  · exact hnext a r'

theorem Mirrors.recover (h : Mirrors act' act) {covers : Failure → Bool}
    {handler : Failure → Act σ α} {handler' : Failure → Act (Recorded ε σ) α}
    (hhandler : ∀ f, Mirrors (handler' f) (handler f)) :
    Mirrors (recover act' covers handler') (recover act covers handler) := by
  intro r
  have hr := h r
  rw [exec_recover, exec_recover, ← hr]
  rcases act'.exec r with ⟨f | a, r'⟩
  · dsimp only
    split
    · exact hhandler f r'
    · rfl
  · rfl

theorem mirrors_mapM {γ : Type} {f : γ → Act σ α} {f' : γ → Act (Recorded ε σ) α}
    (h : ∀ c, Mirrors (f' c) (f c)) (l : List γ) : Mirrors (l.mapM f') (l.mapM f) := by
  induction l with
  | nil => exact mirrors_pure []
  | cons c l ih =>
      rw [List.mapM_cons, List.mapM_cons]
      exact (h c).bind fun a => ih.bind fun rest => mirrors_pure (a :: rest)

section MirrorsBy

variable {α' β' : Type} {g : α' → α} {k : β' → β} {act' : Act (Recorded ε σ) α'}

/-- But for the record and for what its results carry besides, the one action does what the other
does. -/
def MirrorsBy (g : α' → α) (act' : Act (Recorded ε σ) α') (act : Act σ α) : Prop :=
  ∀ r, ((act'.exec r).1.map g, (act'.exec r).2.withoutEvents) = act.exec r.withoutEvents

theorem mirrorsBy_id {act' : Act (Recorded ε σ) α} : MirrorsBy id act' act ↔ Mirrors act' act :=
  forall_congr' fun r => by rw [Except.map_id]; rfl

theorem mirrorsBy_pure {a' : α'} : MirrorsBy g (pure a' : Act (Recorded ε σ) α') (pure (g a')) :=
  fun _ => rfl

theorem mirrors_beneath (act : Act σ α) : Mirrors (beneath act : Act (Recorded ε σ) α) act :=
  fun _ => rfl

theorem mirrors_ofExcept (out : Except Failure α) :
    Mirrors (ofExcept out : Act (Recorded ε σ) α) (ofExcept out) := by
  cases out <;> exact fun _ => rfl

theorem MirrorsBy.bind {next : α → Act σ β} {next' : α' → Act (Recorded ε σ) β'}
    (h : MirrorsBy g act' act) (hnext : ∀ a', MirrorsBy k (next' a') (next (g a'))) :
    MirrorsBy k (act' >>= next') (act >>= next) := by
  intro r
  have hr := h r
  rw [exec_bind, exec_bind, ← hr]
  rcases act'.exec r with ⟨f | a', r'⟩
  · rfl
  · exact hnext a' r'

theorem MirrorsBy.tell (h : MirrorsBy g act' act) (e : ε) :
    MirrorsBy g (do tell e; act') act := fun r => h (r.withoutEvents.beside (r.state.events ++ [e]))

theorem MirrorsBy.attempt (h : MirrorsBy g act' act) :
    MirrorsBy (Except.map g) (attempt act') (attempt act) := fun r =>
  congrArg (fun x : Except Failure α × Run σ => ((.ok x.1 : Except Failure _), x.2)) (h r)

theorem MirrorsBy.ensuring {last : Act σ Unit} {last' : Act (Recorded ε σ) Unit}
    (h : MirrorsBy g act' act) (hlast : Mirrors last' last) :
    MirrorsBy g (ensuring act' last') (ensuring act last) := by
  refine h.attempt.bind fun out => (mirrorsBy_id.2 hlast).bind fun _ => ?_
  cases out <;> exact fun _ => rfl

theorem mirrorsBy_foldlM {γ : Type} {f : α → γ → Act σ α} {f' : α' → γ → Act (Recorded ε σ) α'}
    (h : ∀ a' c, MirrorsBy g (f' a' c) (f (g a') c)) (l : List γ) (a' : α') :
    MirrorsBy g (l.foldlM f' a') (l.foldlM f (g a')) := by
  induction l generalizing a' with
  | nil => exact mirrorsBy_pure
  | cons c l ih =>
      rw [List.foldlM_cons, List.foldlM_cons]
      exact (h a' c).bind ih

end MirrorsBy

end Act

end MediaCatalog
