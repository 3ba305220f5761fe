import MediaCatalog.Proofs.Act

namespace MediaCatalog

/-- What a question comes to: an answer, a refusal of something that was read for it, or nothing at
all, since the index could not be read. -/
inductive Fate where
  | answered
  | refused
  | unread
  deriving DecidableEq, Repr

namespace Fate

def ofBool (fine : Bool) : Fate := if fine then .answered else .refused

def next : Fate → Fate → Fate
  | .answered, other => other
  | .refused, _ => .refused
  | .unread, _ => .unread

theorem ofBool_and (p q : Bool) : ofBool (p && q) = (ofBool p).next (ofBool q) := by
  cases p <;> rfl

end Fate

/-- The value is what the fate says it is; refusals have what is said of them. -/
inductive Ends {α : Type} (refusal : Failure → Prop) : Fate → α → Except Failure α → Prop
  | answered (a : α) : Ends refusal .answered a (.ok a)
  | refused (a : α) {f : Failure} (hf : refusal f) : Ends refusal .refused a (.error f)
  | unread (a : α) {f : Failure} (hf : f.cause = .indexQuery) : Ends refusal .unread a (.error f)

namespace Ends

variable {α β : Type} {refusal other : Failure → Prop} {fate fate' : Fate} {a : α} {b : β}
  {out : Except Failure α}

theorem mono (h : Ends refusal fate a out) (hother : ∀ f, refusal f → other f) :
    Ends other fate a out := by
  cases h with
  | answered => exact .answered a
  | refused _ hf => exact .refused a (hother _ hf)
  | unread _ hf => exact .unread a hf

theorem bind {next : α → Except Failure β} (h : Ends refusal fate a out)
    (hnext : Ends refusal fate' b (next a)) : Ends refusal (fate.next fate') b (out >>= next) := by
  cases h with
  | answered => exact hnext
  | refused _ hf => exact .refused b hf
  | unread _ hf => exact .unread b hf

theorem map (h : Ends refusal fate a out) (g : α → β) :
    Ends refusal fate (g a) (do return g (← out)) := by
  cases h with
  | answered => exact .answered (g a)
  | refused _ hf => exact .refused (g a) hf
  | unread _ hf => exact .unread (g a) hf

theorem eq_ok (h : Ends refusal .answered a out) : out = .ok a := by
  cases h
  rfl

theorem exists_refusal (h : Ends refusal .refused a out) : ∃ f, out = .error f ∧ refusal f := by
  cases h with
  | refused _ hf => exact ⟨_, rfl, hf⟩

theorem refusal_of_error {p : Bool} {f : Failure} (h : Ends refusal (.ofBool p) a (.error f)) :
    refusal f := by
  cases p with
  | false =>
      obtain ⟨g, hg, hrefusal⟩ := exists_refusal h
      cases hg
      exact hrefusal
  | true => cases eq_ok h

theorem and {p q : Bool} {next : α → Except Failure β} (h : Ends refusal (.ofBool p) a out)
    (hnext : Ends refusal (.ofBool q) b (next a)) :
    Ends refusal (.ofBool (p && q)) b (out >>= next) := by
  rw [Fate.ofBool_and]
  exact h.bind hnext

theorem mapM {test : α → Bool} {value : α → β} {f : α → Except Failure β}
    (h : ∀ a, Ends refusal (.ofBool (test a)) (value a) (f a)) (l : List α) :
    Ends refusal (.ofBool (l.all test)) (l.map value) (l.mapM f) := by
  induction l with
  | nil => exact .answered []
  | cons a l ih =>
      rw [List.mapM_cons, List.all_cons]
      exact (h a).and (ih.map _)

end Ends

/-- A list is empty when the index could not be read. -/
inductive Lists {α : Type} (refusal : Failure → Prop) :
    Fate → List α → Except Failure (List α) → Prop
  | answered (l : List α) : Lists refusal .answered l (.ok l)
  | refused (l : List α) {f : Failure} (hf : refusal f) : Lists refusal .refused l (.error f)
  | unread (l : List α) : Lists refusal .unread l (.ok [])

namespace Lists

variable {α : Type} {refusal : Failure → Prop} {l : List α} {out : Except Failure (List α)}

theorem eq_ok (h : Lists refusal .answered l out) : out = .ok l := by
  cases h
  rfl

theorem exists_refusal (h : Lists refusal .refused l out) : ∃ f, out = .error f ∧ refusal f := by
  cases h with
  | refused _ hf => exact ⟨_, rfl, hf⟩

theorem of_recover {σ : Type} {act : Act σ (List α)} {covers : Failure → Bool}
    {handler : Failure → Act σ (List α)} {fate : Fate} {r : Run σ}
    (h : Ends refusal fate l (act.exec r).1) (hcovers : ∀ f, covers f ↔ f.cause = .indexQuery)
    (hrefusal : ∀ f, refusal f → f.cause ≠ .indexQuery)
    (hhandler : ∀ f q, ((handler f).exec q).1 = .ok []) :
    Lists refusal fate l ((Act.recover act covers handler).exec r).1 := by
  rw [Act.exec_recover]
  generalize act.exec r = result at h ⊢
  obtain ⟨out, r'⟩ := result
  cases h with
  | answered => exact .answered l
  | @refused _ f hf =>
      simp only [if_neg (mt (hcovers f).1 (hrefusal f hf))]
      exact .refused l hf
  | @unread _ f hf =>
      simp only [if_pos ((hcovers f).2 hf), hhandler]
      exact .unread l

end Lists

end MediaCatalog
