import MediaCatalog.Proofs.Completion.Calls

namespace MediaCatalog.Completer

variable {σ : Type} {c : Completer σ} {a : Answers}

/-- There is no permission to ask for, or it is given. -/
def IsGranted (c : Completer σ) (r : Run σ) : Prop :=
  ∀ access, c.hasReadAccess = some access → (access.exec r).1 = .ok true

def IsDenied (c : Completer σ) (r : Run σ) : Prop :=
  ∃ access, c.hasReadAccess = some access ∧ (access.exec r).1 = .ok false

def warned (i : Item) (f : Failure) (r : Run σ) : Run σ :=
  { r with log := r.log ++ [⟨Log.warning, "mediashelf.populate", "Could not populate %s: %s",
      [.text i.location, .failure f], none⟩] }

def visited (c : Completer σ) (a : Answers) (r : Run σ) (i : Item) : Run σ :=
  if i.isPopulated then r
  else match (a.calls i).findSome? a.failure? with
    | some f => warned i f ((a.calls i).foldl c.after r)
    | none => (a.calls i).foldl c.after r

namespace Answers

def isRenewed (a : Answers) (i : Item) : Bool := !(i.isPopulated || (a.calls i).any a.fails)

def visit (a : Answers) (i : Item) : Completed := ⟨a.completion i, a.isRenewed i⟩

theorem visit_populated (a : Answers) {i : Item} (h : i.isPopulated) : a.visit i = ⟨i, false⟩ := by
  simp [visit, completion, isRenewed, h]

theorem failure_mem {a : Answers} {made : List Call} {f : Failure}
    (h : made.findSome? a.failure? = some f) : ∃ call ∈ made, a.failure? call = some f :=
  List.exists_of_findSome?_eq_some h

end Answers

theorem Answers.visit_failed {a : Answers} {i : Item} {f : Failure}
    (h : (a.calls i).findSome? a.failure? = some f) : a.visit i = ⟨i, false⟩ := by
  simp [Answers.visit, Answers.completion, Answers.isRenewed, a.any_fails, h]

theorem exec_completeOne (hc : c.Answering a) {i : Item} (hp : ¬ i.isPopulated) (r : Run σ) :
    (c.completeOne i).exec r =
      match (a.calls i).findSome? a.failure? with
      | none => (.ok (a.visit i), (a.calls i).foldl c.after r)
      | some f =>
        if f.isSystem then (.ok (a.visit i), warned i f ((a.calls i).foldl c.after r))
        else (.error f, (a.calls i).foldl c.after r) := by
  have hresolved := ((resolve_makes hc i).map (Completed.mk · true)) r
  rw [completeOne, if_neg hp, Act.exec_recover, hresolved, Answers.outcome]
  cases hf : (a.calls i).findSome? a.failure? with
  | none => simp [Answers.visit, Answers.completion, Answers.isRenewed, hp, a.any_fails, hf]
  | some f =>
      simp only [Act.exec_bind, Act.exec_log, Act.exec_pure, Answers.visit_failed hf, warned]

/-- Completing one item never fails: a failing call leaves the item as it is. -/
theorem completeOne_exec (hc : c.Answering a) (ha : a.FailsBySystem) (i : Item) (r : Run σ) :
    (c.completeOne i).exec r = (.ok (a.visit i), c.visited a r i) := by
  by_cases hp : i.isPopulated
  · simp [completeOne, visited, a.visit_populated hp, hp]
  · rw [exec_completeOne hc hp, visited, if_neg hp]
    cases hf : (a.calls i).findSome? a.failure? with
    | none => rfl
    | some f =>
        obtain ⟨call, -, hcall⟩ := Answers.failure_mem hf
        exact if_pos (ha call f hcall)

theorem completeAll_exec (hc : c.Answering a) (ha : a.FailsBySystem) (items : List Item)
    (r : Run σ) :
    (items.mapM c.completeOne).exec r = (.ok (items.map a.visit), items.foldl (c.visited a) r) :=
  Act.exec_mapM (completeOne_exec hc ha) items r

theorem mayRead_of_isGranted {r : Run σ} (h : c.IsGranted r) : (c.mayRead.exec r).1 = .ok true := by
  cases hc : c.hasReadAccess with
  | none => simp [mayRead, hc]
  | some access => simpa [mayRead, hc] using h access hc

theorem mayRead_of_isDenied {r : Run σ} (h : c.IsDenied r) : (c.mayRead.exec r).1 = .ok false := by
  obtain ⟨access, hc, hr⟩ := h
  simpa [mayRead, hc] using hr

theorem complete_of_all {items : List Item} (h : items.all Item.isPopulated) (r : Run σ) :
    (c.complete items).exec r = (.ok (.kept items), r) := by
  rw [complete, if_pos h, Act.exec_pure]

theorem complete_of_isGranted (hc : c.Answering a) (ha : a.FailsBySystem) {items : List Item}
    {r : Run σ} (hall : ¬ items.all Item.isPopulated) (h : c.IsGranted r) :
    ((c.complete items).exec r).1 = .ok ⟨items.map a.visit, true⟩ := by
  have hread : c.mayRead.exec r = (.ok true, (c.mayRead.exec r).2) :=
    Prod.ext (mayRead_of_isGranted h) rfl
  rw [complete, if_neg hall, Act.exec_bind_ok hread, if_pos rfl,
    Act.exec_bind_ok (completeAll_exec hc ha items _), Act.exec_pure]

theorem complete_of_isDenied {items : List Item} {r : Run σ} (h : c.IsDenied r) :
    ((c.complete items).exec r).1 = .ok (.kept items) := by
  by_cases hall : items.all Item.isPopulated
  · rw [complete_of_all hall]
  · have hread : c.mayRead.exec r = (.ok false, (c.mayRead.exec r).2) :=
      Prod.ext (mayRead_of_isDenied h) rfl
    rw [complete, if_neg hall, Act.exec_bind_ok hread]
    rfl

theorem kept_items (items : List Item) : (Batch.kept items).items.map Completed.item = items := by
  simp [Batch.kept, Function.comp_def]

theorem map_visit (a : Answers) (items : List Item) :
    (items.map a.visit).map Completed.item = items.map a.completion := by
  simp [Answers.visit, Function.comp_def]

theorem map_visit_of_all (a : Answers) {items : List Item} (h : items.all Item.isPopulated) :
    items.map a.visit = (Batch.kept items).items := by
  apply List.map_congr_left
  intro i hi
  exact a.visit_populated (List.all_eq_true.1 h i hi)

def ofAnswers (a : Answers) (access : Option Bool) : Completer σ where
  authority := ⟨fun l => Act.ofExcept (a.isLocal l), fun l => Act.ofExcept (a.sizeOf l)⟩
  probe :=
    { metadataQuery := fun l => Act.ofExcept (a.metadataQuery l)
      resourceSize := fun l => Act.ofExcept (a.resourceSize l)
      dimensionsOf := fun m l => Act.ofExcept (a.dimensionsOf m l) }
  hasReadAccess := access.map pure

theorem ofAnswers_answering (a : Answers) (access : Option Bool) :
    (ofAnswers a access : Completer σ).Answering a := by
  constructor <;> intros <;> exact congrArg Prod.fst (Act.exec_ofExcept _ _)

def offline : Failure := ⟨.timedOut, "offline", []⟩

def sampleAnswers : Answers where
  isLocal l := .ok (l = "blob:a")
  sizeOf _ := .ok (some 7)
  metadataQuery _ := .ok none
  resourceSize _ := .ok 0
  dimensionsOf _ l := if l = "far" then .error offline else .ok (3, 2)

theorem sampleAnswers_failsBySystem : sampleAnswers.FailsBySystem := by
  intro call f h
  cases call with
  | dimensionsOf m l =>
      by_cases hl : l = "far"
      · simp only [sampleAnswers, Answers.failure?, failed?, hl, if_true, Option.some.injEq] at h
        subst h
        rfl
      · simp [sampleAnswers, Answers.failure?, failed?, hl] at h
  | _ => simp [sampleAnswers, Answers.failure?, failed?] at h

def sampleItems : List Item :=
  [⟨"blob:a", "image/png", 5, 0, 0, 0, none, none⟩, ⟨"far", "image/png", 4, 0, 9, 0, none, none⟩,
    ⟨"near", "image/png", 3, 0, 9, -1, none, none⟩]

/-- Completing a list completes each item by itself, in place. An item becomes what the answers
about its own location say, and stays as it is when it is populated or some call made for it fails.
A list of populated items, which is given back at once, is what completing each of them gives. -/
theorem complete_eq_map_completion (c : Completer σ) (a : Answers) (hc : c.Answering a)
    (ha : a.FailsBySystem) (items : List Item) (r : Run σ) :
    (c.IsGranted r → ∃ b, ((c.complete items).exec r).1 = .ok b ∧
      b.items.map Completed.item = items.map a.completion) ∧
    (c.IsDenied r → ∃ b, ((c.complete items).exec r).1 = .ok b ∧
      b.items.map Completed.item = items) ∧
    (items.all Item.isPopulated → ∃ b, ((c.complete items).exec r).1 = .ok b ∧
      ((items.mapM c.completeOne).exec r).1 = .ok b.items) ∧
    (∀ i, ((c.completeOne i).exec r).2 = c.visited a r i) ∧
    ∀ i b, a.AgreesAt b i.location → a.completion i = b.completion i := by
  refine ⟨fun h => ?_, fun h => ?_, fun h => ?_, fun i => ?_, fun i b h => ?_⟩
  · by_cases hall : items.all Item.isPopulated
    · refine ⟨.kept items, by rw [complete_of_all hall], ?_⟩
      rw [← map_visit_of_all a hall, map_visit]
    · exact ⟨_, complete_of_isGranted hc ha hall h, map_visit a items⟩
  · exact ⟨_, complete_of_isDenied h, kept_items items⟩
  · refine ⟨.kept items, by rw [complete_of_all h], ?_⟩
    rw [completeAll_exec hc ha, map_visit_of_all a h]
  · rw [completeOne_exec hc ha]
  · exact Answers.completion_congr h

theorem complete_sample :
    ∃ b, (((ofAnswers sampleAnswers none).complete sampleItems).exec ⟨(), []⟩).1 = .ok b ∧
      b.items.map Completed.item =
        [⟨"blob:a", "image/png", 5, 3, 2, 7, none, none⟩,
          ⟨"far", "image/png", 4, 0, 9, 0, none, none⟩,
          ⟨"near", "image/png", 3, 3, 2, -1, none, none⟩] := by
  have h := complete_eq_map_completion (ofAnswers sampleAnswers none) sampleAnswers
    (ofAnswers_answering _ _) sampleAnswers_failsBySystem sampleItems ⟨(), []⟩
  have hgranted : (ofAnswers sampleAnswers none : Completer Unit).IsGranted ⟨(), []⟩ := by
    intro access h
    simp [ofAnswers] at h
  obtain ⟨b, hb, hitems⟩ := h.1 hgranted
  exact ⟨b, hb, hitems.trans (by decide)⟩

end MediaCatalog.Completer
