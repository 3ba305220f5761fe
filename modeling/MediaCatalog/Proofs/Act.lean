import MediaCatalog.Act

namespace MediaCatalog

theorem mapM_ok {α β : Type} {f : α → Except Failure β} {g : α → β} {l : List α}
    (h : ∀ a ∈ l, f a = .ok (g a)) : l.mapM f = .ok (l.map g) := by
  induction l with
  | nil => rfl
  | cons a l ih =>
      rw [List.mapM_cons, h a List.mem_cons_self, ih fun b hb => h b (List.mem_cons_of_mem a hb)]
      rfl

namespace Act

variable {σ α β : Type}

def exec (act : Act σ α) (r : Run σ) : Except Failure α × Run σ := act.run r

@[simp] theorem exec_pure (a : α) (r : Run σ) : (pure a : Act σ α).exec r = (.ok a, r) := rfl

theorem exec_bind (act : Act σ α) (next : α → Act σ β) (r : Run σ) :
    (act >>= next).exec r =
      match act.exec r with
      | (.ok a, r') => (next a).exec r'
      | (.error f, r') => (.error f, r') := by
  change (match act.exec r with | (out, r') => (ExceptT.bindCont next out) r') = _
  rcases act.exec r with ⟨_ | _, _⟩ <;> rfl

theorem exec_bind_ok {act : Act σ α} {r r' : Run σ} {a : α} (h : act.exec r = (.ok a, r'))
    (next : α → Act σ β) : (act >>= next).exec r = (next a).exec r' := by
  rw [exec_bind, h]

theorem exec_bind_error {act : Act σ α} {r r' : Run σ} {f : Failure}
    (h : act.exec r = (.error f, r')) (next : α → Act σ β) :
    (act >>= next).exec r = (.error f, r') := by
  rw [exec_bind, h]

theorem exec_bind_eq_ok {act : Act σ α} {next : α → Act σ β} {r r' : Run σ} {b : β} :
    (act >>= next).exec r = (.ok b, r') ↔
      ∃ a r₁, act.exec r = (.ok a, r₁) ∧ (next a).exec r₁ = (.ok b, r') := by
  rw [exec_bind]
  rcases act.exec r with ⟨f | a, r₁⟩
  · constructor
    · intro h
      cases h
    · rintro ⟨a, r₂, h, -⟩
      cases h
  · constructor
    · intro h
      exact ⟨a, r₁, rfl, h⟩
    · rintro ⟨a, r₁, ⟨⟩, h⟩
      exact h

theorem exec_bind_of_same {act : Act σ α} {out : Except Failure α} {r r' : Run σ}
    (h : act.exec r = (out, r)) {next : α → Act σ β} {b : β} :
    (act >>= next).exec r = (.ok b, r') ↔
      ∃ a, out = .ok a ∧ (next a).exec r = (.ok b, r') := by
  rw [exec_bind, h]
  cases out <;> simp

@[simp] theorem exec_fail (f : Failure) (r : Run σ) :
    (fail f : Act σ α).exec r = (.error f, r) := rfl

@[simp] theorem exec_ofExcept (out : Except Failure α) (r : Run σ) :
    (ofExcept out : Act σ α).exec r = (out, r) := by
  cases out <;> rfl

@[simp] theorem exec_getState (r : Run σ) : getState.exec r = (.ok r.state, r) := rfl

@[simp] theorem exec_setState (s : σ) (r : Run σ) :
    (setState s).exec r = (.ok (), { r with state := s }) := rfl

@[simp] theorem exec_log (line : Log.Record) (r : Run σ) :
    (log line).exec r = (.ok (), { r with log := r.log ++ [line] }) := rfl

theorem exec_attempt (act : Act σ α) (r : Run σ) :
    (attempt act).exec r = (.ok (act.exec r).1, (act.exec r).2) := rfl

theorem exec_ensuring {act : Act σ α} {last : Act σ Unit} {r r' r'' : Run σ}
    {out : Except Failure α} (h : act.exec r = (out, r')) (hlast : last.exec r' = (.ok (), r'')) :
    (ensuring act last).exec r = (out, r'') := by
  have hattempt : (attempt act).exec r = (.ok out, r') := by rw [exec_attempt, h]
  rw [ensuring, exec_bind_ok hattempt, exec_bind_ok hlast, exec_ofExcept]

theorem exec_ensuring_eq_ok {act : Act σ α} {last : Act σ Unit} {r r' : Run σ} {a : α} :
    (ensuring act last).exec r = (.ok a, r') ↔
      ∃ r₁, act.exec r = (.ok a, r₁) ∧ last.exec r₁ = (.ok (), r') := by
  rw [ensuring, exec_bind_ok (exec_attempt act r)]
  rcases act.exec r with ⟨out, r₁⟩
  rw [exec_bind]
  rcases hlast : last.exec r₁ with ⟨f | u, r₂⟩
  · constructor
    · intro h
      cases h
    · rintro ⟨_, ⟨⟩, h⟩
      cases hlast.symm.trans h
  · dsimp only
    rw [exec_ofExcept]
    constructor
    · rintro ⟨⟩
      exact ⟨r₁, rfl, hlast⟩
    · rintro ⟨_, ⟨⟩, h⟩
      cases hlast.symm.trans h
      rfl

theorem run_ensuring (act : Act σ α) (last : Act σ Unit) (r : Run σ) :
    ((ensuring act last).exec r).2 = (last.exec (act.exec r).2).2 := by
  rw [ensuring, exec_bind_ok (exec_attempt act r), exec_bind]
  rcases last.exec (act.exec r).2 with ⟨f | u, r'⟩
  · rfl
  · dsimp only
    rw [exec_ofExcept]

theorem exec_recover (act : Act σ α) (covers : Failure → Bool) (handler : Failure → Act σ α)
    (r : Run σ) :
    (recover act covers handler).exec r =
      match act.exec r with
      | (.ok a, r') => (.ok a, r')
      | (.error f, r') => if covers f then (handler f).exec r' else (.error f, r') := by
  rw [recover, exec_bind_ok (exec_attempt act r)]
  rcases act.exec r with ⟨f | a, r'⟩
  · cases hf : covers f <;> simp [hf]
  · rfl

theorem exec_recover_ok {act : Act σ α} {r r' : Run σ} {a : α} (h : act.exec r = (.ok a, r'))
    (covers : Failure → Bool) (handler : Failure → Act σ α) :
    (recover act covers handler).exec r = (.ok a, r') := by
  rw [exec_recover, h]

theorem exec_recover_error {act : Act σ α} {r r' : Run σ} {f : Failure}
    (h : act.exec r = (.error f, r')) {covers : Failure → Bool} (hf : covers f)
    (handler : Failure → Act σ α) : (recover act covers handler).exec r = (handler f).exec r' := by
  rw [exec_recover, h]
  exact if_pos hf

def Succeeds (act : Act σ α) : Prop := ∀ r, ∃ a r', act.exec r = (.ok a, r')

theorem succeeds_pure (a : α) : Succeeds (pure a : Act σ α) := fun r => ⟨a, r, rfl⟩

theorem succeeds_log (line : Log.Record) : Succeeds (log line : Act σ Unit) := fun r =>
  ⟨_, _, exec_log line r⟩

theorem succeeds_attempt (act : Act σ α) : Succeeds (attempt act) := fun r =>
  ⟨_, _, exec_attempt act r⟩

theorem Succeeds.bind {act : Act σ α} {next : α → Act σ β} (h : Succeeds act)
    (hnext : ∀ a, Succeeds (next a)) : Succeeds (act >>= next) := by
  intro r
  obtain ⟨a, r', hact⟩ := h r
  obtain ⟨b, r'', hrest⟩ := hnext a r'
  exact ⟨b, r'', (exec_bind_ok hact next).trans hrest⟩

theorem succeeds_foldlM {f : β → α → Act σ β} (h : ∀ b a, Succeeds (f b a)) (l : List α) (b : β) :
    Succeeds (l.foldlM f b) := by
  induction l generalizing b with
  | nil => exact succeeds_pure b
  | cons a l ih =>
      rw [List.foldlM_cons]
      exact (h b a).bind ih

theorem exec_mapM {act : α → Act σ β} {value : α → β} {after : Run σ → α → Run σ}
    (h : ∀ a r, (act a).exec r = (.ok (value a), after r a)) (l : List α) (r : Run σ) :
    (l.mapM act).exec r = (.ok (l.map value), l.foldl after r) := by
  induction l generalizing r with
  | nil => rfl
  | cons a l ih =>
      rw [List.mapM_cons, exec_bind_ok (h a r), exec_bind_ok (ih (after r a))]
      rfl

end Act

end MediaCatalog
