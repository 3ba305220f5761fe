import Mathlib.Data.List.Forall2
import Mathlib.Order.Defs.Unbundled
import MediaCatalog.Proofs.World

namespace MediaCatalog.Act

variable {σ α β : Type} {act : Act σ α} {next : α → Act σ β} {r r' : Run σ} {s : σ}

section Returns

variable {P : α → Prop} {Q : β → Prop}

def Returns (P : α → Prop) (act : Act σ α) : Prop := ∀ r a r', act.exec r = (.ok a, r') → P a

theorem returns_any (act : Act σ α) : Returns (fun _ => True) act := fun _ _ _ _ => trivial

theorem returns_pure {a : α} (h : P a) : Returns P (pure a : Act σ α) := by
  intro r b r' hb
  cases hb
  exact h

theorem Returns.bind (h : Returns P act) (hnext : ∀ a, P a → Returns Q (next a)) :
    Returns Q (act >>= next) := by
  intro r b r' hb
  obtain ⟨a, r₁, hact, hrest⟩ := exec_bind_eq_ok.1 hb
  exact hnext a (h r a r₁ hact) r₁ b r' hrest

theorem returns_foldlM {f : α → β → Act σ α} (h : ∀ a b, P a → Returns P (f a b)) (l : List β)
    {a : α} (ha : P a) : Returns P (l.foldlM f a) := by
  induction l generalizing a with
  | nil => exact returns_pure ha
  | cons b l ih =>
      rw [List.foldlM_cons]
      exact (h a b ha).bind fun a' ha' => ih ha'

end Returns

section FailsOnly

variable {P : Failure → Prop} {Q : α → Prop}

def FailsOnly (P : Failure → Prop) (act : Act σ α) : Prop :=
  ∀ r f r', act.exec r = (.error f, r') → P f

theorem failsOnly_pure (a : α) : FailsOnly P (pure a : Act σ α) := by
  intro r f r' h
  cases h

theorem failsOnly_fail {f : Failure} (h : P f) : FailsOnly P (fail f : Act σ α) := by
  intro r g r' hg
  cases hg
  exact h

theorem failsOnly_getState : FailsOnly P (getState : Act σ σ) := by
  intro r f r' h
  cases h

theorem FailsOnly.bind_returns (h : FailsOnly P act) (hreturns : Returns Q act)
    (hnext : ∀ a, Q a → FailsOnly P (next a)) : FailsOnly P (act >>= next) := by
  intro r f r' hf
  rw [exec_bind] at hf
  rcases hact : act.exec r with ⟨g | a, r₁⟩ <;> rw [hact] at hf
  · cases hf
    exact h r f r' hact
  · exact hnext a (hreturns r a r₁ hact) r₁ f r' hf

theorem FailsOnly.bind (h : FailsOnly P act) (hnext : ∀ a, FailsOnly P (next a)) :
    FailsOnly P (act >>= next) :=
  h.bind_returns (returns_any act) fun a _ => hnext a

theorem FailsOnly.succeeds_recover {covers : Failure → Bool} {handler : Failure → Act σ α}
    (h : FailsOnly (fun f => covers f) act) (hhandler : ∀ f, Succeeds (handler f)) :
    Succeeds (recover act covers handler) := by
  intro r
  rcases hact : act.exec r with ⟨f | a, r'⟩
  · rw [exec_recover_error hact (h r f r' hact)]
    exact hhandler f r'
  · exact ⟨a, r', exec_recover_ok hact covers handler⟩

end FailsOnly

section InTurn

variable {act : α → Act σ β} {P : Run σ → α → β → Prop} {l : List α} {bs : List β}

inductive InTurn (act : α → Act σ β) (P : Run σ → α → β → Prop) : Run σ → List α → List β → Prop
  | nil (r : Run σ) : InTurn act P r [] []
  | cons {r r' : Run σ} {a : α} {b : β} {l : List α} {bs : List β}
      (hact : (act a).exec r = (.ok b, r')) (hb : P r a b) (hrest : InTurn act P r' l bs) :
      InTurn act P r (a :: l) (b :: bs)

theorem InTurn.forall₂ {Q : α → β → Prop} (h : InTurn act P r l bs)
    (hQ : ∀ r a b, P r a b → Q a b) : List.Forall₂ Q l bs := by
  induction h with
  | nil => exact .nil
  | cons _ hb _ ih => exact .cons (hQ _ _ _ hb) ih

theorem InTurn.imp {Q : Run σ → α → β → Prop} (h : InTurn act P r l bs)
    (hQ : ∀ r a b, P r a b → Q r a b) : InTurn act Q r l bs := by
  induction h with
  | nil r => exact .nil r
  | cons hact hb _ ih => exact .cons hact (hQ _ _ _ hb) ih

theorem exec_mapM_inTurn (h : ∀ a, Succeeds (act a))
    (hP : ∀ a r b r', (act a).exec r = (.ok b, r') → P r a b) (l : List α) (r : Run σ) :
    ∃ bs r', (l.mapM act).exec r = (.ok bs, r') ∧ InTurn act P r l bs := by
  induction l generalizing r with
  | nil => exact ⟨[], r, rfl, .nil r⟩
  | cons a l ih =>
      obtain ⟨b, r₁, hact⟩ := h a r
      obtain ⟨bs, r₂, hrest, hturn⟩ := ih r₁
      refine ⟨b :: bs, r₂, ?_, .cons hact (hP a r b r₁ hact) hturn⟩
      rw [List.mapM_cons, exec_bind_ok hact, exec_bind_ok hrest, exec_pure]

end InTurn

section Keeps

variable {R : σ → σ → Prop} [IsPreorder σ R]

/-- The state afterwards is in this relation to the state before, also after a failure. -/
def Keeps (R : σ → σ → Prop) (act : Act σ α) : Prop := ∀ r, R r.state (act.exec r).2.state

theorem keeps_of_state_eq (h : ∀ r, (act.exec r).2.state = r.state) : Keeps R act := by
  intro r
  rw [h r]
  exact refl_of R r.state

theorem keeps_pure (a : α) : Keeps R (pure a : Act σ α) := keeps_of_state_eq fun _ => rfl

theorem keeps_fail (f : Failure) : Keeps R (fail f : Act σ α) := keeps_of_state_eq fun _ => rfl

theorem keeps_getState : Keeps R (getState : Act σ σ) := keeps_of_state_eq fun _ => rfl

theorem keeps_log (line : Log.Record) : Keeps R (log line : Act σ Unit) :=
  keeps_of_state_eq fun _ => rfl

theorem keeps_ofExcept (out : Except Failure α) : Keeps R (ofExcept out : Act σ α) := by
  refine keeps_of_state_eq fun r => ?_
  rw [exec_ofExcept]

theorem Keeps.bind_of (h : Keeps R act)
    (hnext : ∀ a r r', act.exec r = (.ok a, r') → R r'.state ((next a).exec r').2.state) :
    Keeps R (act >>= next) := by
  intro r
  have hfirst := h r
  rw [exec_bind]
  rcases hact : act.exec r with ⟨f | a, r'⟩
  · rw [hact] at hfirst
    exact hfirst
  · rw [hact] at hfirst
    exact trans_of R hfirst (hnext a r r' hact)

theorem Keeps.bind (h : Keeps R act) (hnext : ∀ a, Keeps R (next a)) : Keeps R (act >>= next) :=
  h.bind_of fun a _ r' _ => hnext a r'

theorem Keeps.bind_returns {P : α → Prop} (h : Keeps R act) (hreturns : Returns P act)
    (hnext : ∀ a, P a → Keeps R (next a)) : Keeps R (act >>= next) :=
  h.bind_of fun a r r' hact => hnext a (hreturns r a r' hact) r'

omit [IsPreorder σ R] in
theorem Keeps.attempt (h : Keeps R act) : Keeps R (attempt act) := h

theorem Keeps.recover (h : Keeps R act) {covers : Failure → Bool} {handler : Failure → Act σ α}
    (hhandler : ∀ f, Keeps R (handler f)) : Keeps R (recover act covers handler) := by
  refine h.attempt.bind fun out => ?_
  cases out with
  | ok a => exact keeps_pure a
  | error f =>
      dsimp only
      split
      · exact hhandler f
      · exact keeps_fail f

theorem Keeps.ensuring (h : Keeps R act) {last : Act σ Unit} (hlast : Keeps R last) :
    Keeps R (ensuring act last) :=
  h.attempt.bind fun out => hlast.bind fun _ => keeps_ofExcept out

theorem keeps_foldlM_of {P : α → Prop} {f : α → β → Act σ α} (h : ∀ a b, P a → Keeps R (f a b))
    (hreturns : ∀ a b, P a → Returns P (f a b)) (l : List β) {a : α} (ha : P a) :
    Keeps R (l.foldlM f a) := by
  induction l generalizing a with
  | nil => exact keeps_pure a
  | cons b l ih =>
      rw [List.foldlM_cons]
      exact (h a b ha).bind_returns (hreturns a b ha) fun a' ha' => ih ha'

theorem keeps_foldlM {f : α → β → Act σ α} (h : ∀ a b, Keeps R (f a b)) (l : List β) (a : α) :
    Keeps R (l.foldlM f a) :=
  keeps_foldlM_of (P := fun _ => True) (fun a b _ => h a b) (fun a b _ => returns_any (f a b)) l
    trivial

end Keeps

section Inspects

/-- The outcome and the state depend on the state alone, and the state stays. -/
def Inspects (act : Act σ α) : Prop :=
  ∀ r, (act.exec r).1 = (act.start r.state).1 ∧ (act.exec r).2.state = r.state

theorem Inspects.keeps {R : σ → σ → Prop} [IsPreorder σ R] (h : Inspects act) : Keeps R act :=
  keeps_of_state_eq fun r => (h r).2

theorem Inspects.exec_eq (h : Inspects act) {out : Except Failure α} (hr : r.state = s)
    (hout : (act.start s).1 = out) : ∃ r', act.exec r = (out, r') ∧ r'.state = s := by
  subst hr
  exact ⟨_, Prod.ext ((h r).1.trans hout) rfl, (h r).2⟩

theorem inspects_pure (a : α) : Inspects (pure a : Act σ α) := fun _ => ⟨rfl, rfl⟩

theorem inspects_fail (f : Failure) : Inspects (fail f : Act σ α) := fun _ => ⟨rfl, rfl⟩

theorem inspects_getState : Inspects (getState : Act σ σ) := fun _ => ⟨rfl, rfl⟩

theorem inspects_log (line : Log.Record) : Inspects (log line : Act σ Unit) := fun _ => ⟨rfl, rfl⟩

theorem inspects_ofExcept (out : Except Failure α) : Inspects (ofExcept out : Act σ α) := by
  intro r
  rw [exec_ofExcept]
  cases out <;> exact ⟨rfl, rfl⟩

theorem start_bind (h : Inspects act) (hnext : ∀ a, Inspects (next a)) (s : σ) :
    ((act >>= next).start s).1 = (act.start s).1 >>= fun a => ((next a).start s).1 := by
  change ((act >>= next).exec ⟨s, []⟩).1 = (act.exec ⟨s, []⟩).1 >>= fun a => ((next a).start s).1
  rw [exec_bind]
  have hstate := (h ⟨s, []⟩).2
  rcases hact : act.exec ⟨s, []⟩ with ⟨f | a, r⟩
  · rfl
  · rw [hact] at hstate
    obtain rfl : r.state = s := hstate
    exact (hnext a r).1

theorem start_ofExcept (out : Except Failure α) (s : σ) :
    ((ofExcept out : Act σ α).start s).1 = out := congrArg Prod.fst (exec_ofExcept out ⟨s, []⟩)

theorem start_bind_congr {s' : σ} (h : Inspects act) (hnext : ∀ a, Inspects (next a))
    (hact : (act.start s').1 = (act.start s).1)
    (hsame : ∀ a, ((next a).start s').1 = ((next a).start s).1) :
    ((act >>= next).start s').1 = ((act >>= next).start s).1 := by
  rw [start_bind h hnext, start_bind h hnext, hact, funext hsame]

theorem Inspects.bind (h : Inspects act) (hnext : ∀ a, Inspects (next a)) :
    Inspects (act >>= next) := by
  intro r
  rw [start_bind h hnext, ← (h r).1, exec_bind]
  have hstate := (h r).2
  rcases hact : act.exec r with ⟨f | a, r'⟩ <;> rw [hact] at hstate
  · exact ⟨rfl, hstate⟩
  · obtain ⟨hout, hstate'⟩ := hnext a r'
    rw [show r'.state = r.state from hstate] at hout hstate'
    exact ⟨hout, hstate'⟩

theorem Inspects.attempt (h : Inspects act) : Inspects (attempt act) := by
  intro r
  exact ⟨congrArg Except.ok (h r).1, (h r).2⟩

theorem Inspects.recover (h : Inspects act) {covers : Failure → Bool}
    {handler : Failure → Act σ α} (hhandler : ∀ f, Inspects (handler f)) :
    Inspects (recover act covers handler) := by
  refine h.attempt.bind fun out => ?_
  cases out with
  | ok a => exact inspects_pure a
  | error f =>
      dsimp only
      split
      · exact hhandler f
      · exact inspects_fail f

theorem start_recover (h : Inspects act) {covers : Failure → Bool} {handler : Failure → Act σ α}
    (hhandler : ∀ f, Inspects (handler f)) (s : σ) :
    ((recover act covers handler).start s).1 = match (act.start s).1 with
      | .ok a => .ok a
      | .error f => if covers f then ((handler f).start s).1 else .error f := by
  change ((recover act covers handler).exec ⟨s, []⟩).1 = match (act.exec ⟨s, []⟩).1 with
    | .ok a => .ok a
    | .error f => if covers f then ((handler f).start s).1 else .error f
  rw [exec_recover]
  have hstate := (h ⟨s, []⟩).2
  rcases hact : act.exec ⟨s, []⟩ with ⟨f | a, r⟩
  · rw [hact] at hstate
    obtain rfl : r.state = s := hstate
    dsimp only
    split
    · exact (hhandler f r).1
    · rfl
  · rfl

theorem inspects_mapM {f : β → Act σ α} (h : ∀ b, Inspects (f b)) (l : List β) :
    Inspects (l.mapM f) := by
  induction l with
  | nil => exact inspects_pure []
  | cons b l ih =>
      rw [List.mapM_cons]
      exact (h b).bind fun a => ih.bind fun rest => inspects_pure (a :: rest)

theorem start_mapM {f : β → Act σ α} (h : ∀ b, Inspects (f b)) (l : List β) (s : σ) :
    ((l.mapM f).start s).1 = l.mapM fun b => ((f b).start s).1 := by
  induction l with
  | nil => rfl
  | cons b l ih =>
      rw [List.mapM_cons, List.mapM_cons, start_bind (h b) fun a =>
        (inspects_mapM h l).bind fun rest => inspects_pure (a :: rest)]
      refine congrArg _ (funext fun a => ?_)
      rw [start_bind (inspects_mapM h l) fun rest => inspects_pure (a :: rest), ih]
      rfl

end Inspects

end MediaCatalog.Act

namespace MediaCatalog.World

theorem inspects_ask {α : Type} (question : FileSystem → Path → Except Failure α) :
    Act.Inspects (ask question) :=
  Act.inspects_getState.bind fun w => Act.inspects_ofExcept (question w.files w.cwd)

theorem inspects_load (p : Path) : Act.Inspects (load p) :=
  (inspects_ask _).bind fun out => Act.inspects_pure out.1.toBytes

end MediaCatalog.World
