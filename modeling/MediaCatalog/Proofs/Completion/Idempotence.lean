import MediaCatalog.Proofs.Completion.Record

namespace MediaCatalog.Completer

open Act

namespace Answers

variable {a : Answers} {i : Item}

def made (a : Answers) (i : Item) : List Call := if i.isPopulated then [] else a.calls i

/-- No call made for the item fails for another reason than that the system refused. -/
def Survives (a : Answers) (i : Item) : Prop :=
  ∀ f, (a.made i).findSome? a.failure? = some f → f.isSystem

def event (a : Answers) : Call → Event
  | .isLocal l => .isLocal l (a.isLocal l)
  | .sizeOf l => .sizeOf l (a.sizeOf l)
  | .metadataQuery l => .metadataQuery l (a.metadataQuery l)
  | .resourceSize l => .resourceSize l (a.resourceSize l)
  | .dimensionsOf m l => .dimensionsOf m l (a.dimensionsOf m l)

theorem size_completed (a : Answers) (i : Item) : a.size (a.completed i) = a.size i := by
  change (if 0 < a.size i then a.size i else
    ([a.firstSize i.location, a.lastSize i.location].findSome? positive?).getD (a.size i)) = _
  split
  · rfl
  · rename_i hsize
    by_cases hi : 0 < i.size
    · exact absurd (by rwa [size, if_pos hi]) hsize
    · rw [size, if_neg hi]
      cases [a.firstSize i.location, a.lastSize i.location].findSome? positive? <;> rfl

theorem sizeCalls_completed_sublist (a : Answers) (i : Item) :
    (a.sizeCalls (a.completed i)).Sublist (a.sizeCalls i) := by
  by_cases hsize : 0 < a.size i
  · have hnone : a.sizeCalls (a.completed i) = [] := if_pos hsize
    rw [hnone]
    exact List.nil_sublist _
  · have hi : ¬ 0 < i.size := fun hi => hsize (by rwa [size, if_pos hi])
    have hsame : a.sizeCalls (a.completed i) = a.sizeCalls i := by
      rw [sizeCalls, sizeCalls, if_neg hi]
      exact if_neg hsize
    rw [hsame]

theorem dimensions_of_ok {d : Int × Int} (hi : ¬ (0 < i.width ∧ 0 < i.height))
    (h : a.dimensionsOf i.mimeType i.location = .ok d) : a.dimensions i = d := by
  rw [dimensions, if_neg hi, h]

theorem dimensions_of_error {f : Failure} (h : a.dimensionsOf i.mimeType i.location = .error f) :
    a.dimensions i = (i.width, i.height) := by
  rw [dimensions, h]
  exact ite_self _

theorem dimensions_completed (a : Answers) (i : Item) :
    a.dimensions (a.completed i) = a.dimensions i := by
  by_cases hsides : 0 < (a.dimensions i).1 ∧ 0 < (a.dimensions i).2
  · exact if_pos hsides
  cases hout : a.dimensionsOf i.mimeType i.location with
  | error f => exact dimensions_of_error (i := a.completed i) hout
  | ok d =>
      have hi : ¬ (0 < i.width ∧ 0 < i.height) := fun hi =>
        hsides (by rwa [dimensions, if_pos hi])
      exact (dimensions_of_ok (i := a.completed i) hsides hout).trans
        (dimensions_of_ok hi hout).symm

theorem dimensionCalls_completed_sublist (a : Answers) (i : Item) :
    (dimensionCalls (a.completed i)).Sublist (dimensionCalls i) := by
  by_cases hi : 0 < i.width ∧ 0 < i.height
  · have hd : a.dimensions i = (i.width, i.height) := by rw [dimensions, if_pos hi]
    have hnone : dimensionCalls (a.completed i) = [] := by
      rw [dimensionCalls]
      exact if_pos (by simpa only [completed, hd] using hi)
    rw [hnone]
    exact List.nil_sublist _
  · rw [dimensionCalls, dimensionCalls, if_neg hi]
    split
    · exact List.nil_sublist _
    · exact List.Sublist.refl _

theorem completed_completed (a : Answers) (i : Item) :
    a.completed (a.completed i) = a.completed i := by
  rw [completed, size_completed, dimensions_completed]
  rfl

theorem any_fails_of_sublist {made made' : List Call} (h : made'.Sublist made)
    (hmade : ¬ made.any a.fails) : ¬ made'.any a.fails := by
  intro hany
  obtain ⟨call, hcall, hfails⟩ := List.any_eq_true.1 hany
  exact hmade (List.any_eq_true.2 ⟨call, h.subset hcall, hfails⟩)

theorem calls_of_not_fails (h : ¬ (a.calls i).any a.fails) :
    a.calls i = a.sizeCalls i ++ dimensionCalls i := by
  have hsize : ¬ (a.sizeCalls i).any a.fails :=
    any_fails_of_sublist (List.sublist_append_left _ _) h
  rw [calls, andThen, if_neg hsize]

/-- When all calls for an item succeed, completing it anew asks some of them again. -/
theorem calls_completed_sublist (h : ¬ (a.calls i).any a.fails) :
    (a.calls (a.completed i)).Sublist (a.calls i) := by
  have hcalls := calls_of_not_fails h
  have hsize := a.sizeCalls_completed_sublist i
  have hfails : ¬ (a.sizeCalls (a.completed i)).any a.fails := by
    refine any_fails_of_sublist hsize (any_fails_of_sublist ?_ h)
    rw [hcalls]
    exact List.sublist_append_left _ _
  rw [hcalls, calls, andThen, if_neg hfails]
  exact hsize.append (a.dimensionCalls_completed_sublist i)

/-- An item is left as it is, or all its calls succeed. -/
theorem completion_cases (a : Answers) (i : Item) :
    a.completion i = i ∨ a.completion i = a.completed i ∧ ¬ i.isPopulated ∧
      ¬ (a.calls i).any a.fails := by
  rw [completion]
  by_cases hp : i.isPopulated
  · exact .inl (by rw [hp, Bool.true_or, if_pos rfl])
  · by_cases hf : (a.calls i).any a.fails
    · exact .inl (by rw [hf, Bool.or_true, if_pos rfl])
    · exact .inr ⟨by simp only [hp, hf, Bool.or_self, Bool.false_eq_true, if_false], hp, hf⟩

theorem made_completion_sublist (a : Answers) (i : Item) :
    (a.made (a.completion i)).Sublist (a.made i) := by
  rcases a.completion_cases i with h | ⟨h, hp, hf⟩
  · rw [h]
  · rw [h, made, made, if_neg hp]
    split
    · exact List.nil_sublist _
    · exact calls_completed_sublist hf

theorem completion_completion (a : Answers) (i : Item) :
    a.completion (a.completion i) = a.completion i := by
  rcases a.completion_cases i with h | ⟨h, hp, hf⟩
  · rw [h, h]
  · rw [h, completion, completed_completed, ite_self]

theorem Survives.completion (h : a.Survives i) : a.Survives (a.completion i) := by
  rcases a.completion_cases i with hi | ⟨hi, hp, hf⟩
  · rwa [hi]
  · intro f hfound
    have hmade : ¬ (a.made i).any a.fails := by rwa [made, if_neg hp]
    have hnone := any_fails_of_sublist (a.made_completion_sublist i) hmade
    rw [any_fails, hfound] at hnone
    exact absurd rfl hnone

end Answers

section Runs

variable {σ : Type} {c : Completer σ} {a : Answers} {i : Item} {items : List Item}

theorem recorded_answering (hc : c.Answering a) : c.recorded.Answering a where
  isLocal l r := hc.isLocal l r.withoutEvents
  sizeOf l r := hc.sizeOf l r.withoutEvents
  metadataQuery l r := hc.metadataQuery l r.withoutEvents
  resourceSize l r := hc.resourceSize l r.withoutEvents
  dimensionsOf m l r := hc.dimensionsOf m l r.withoutEvents

theorem events_after (hc : c.Answering a) (call : Call) (r : Run (Recorded Event σ)) :
    (c.recorded.after r call).state.events = r.state.events ++ [a.event call] := by
  cases call with
  | isLocal l => exact congrArg (r.state.events ++ [.isLocal l ·]) (hc.isLocal l _)
  | sizeOf l => exact congrArg (r.state.events ++ [.sizeOf l ·]) (hc.sizeOf l _)
  | metadataQuery l =>
      exact congrArg (r.state.events ++ [.metadataQuery l ·]) (hc.metadataQuery l _)
  | resourceSize l => exact congrArg (r.state.events ++ [.resourceSize l ·]) (hc.resourceSize l _)
  | dimensionsOf m l =>
      exact congrArg (r.state.events ++ [.dimensionsOf m l ·]) (hc.dimensionsOf m l _)

theorem events_foldl_after (hc : c.Answering a) (made : List Call) (r : Run (Recorded Event σ)) :
    (made.foldl c.recorded.after r).state.events = r.state.events ++ made.map a.event := by
  induction made generalizing r with
  | nil => exact (List.append_nil _).symm
  | cons call made ih => rw [List.foldl_cons, ih, events_after hc, List.append_assoc]; rfl

def Adds {α : Type} (act : Act (Recorded Event σ) α) (es : List Event)
    (out : Except Failure α) : Prop :=
  ∀ r, (act.exec r).1 = out ∧ (act.exec r).2.state.events = r.state.events ++ es

theorem Adds.bind {α β : Type} {act : Act (Recorded Event σ) α}
    {next : α → Act (Recorded Event σ) β} {es es' : List Event} {v : α} {out : Except Failure β}
    (h : Adds act es (.ok v)) (hnext : Adds (next v) es' out) :
    Adds (act >>= next) (es ++ es') out := by
  intro r
  obtain ⟨hout, hes⟩ := h r
  obtain ⟨hout', hes'⟩ := hnext (act.exec r).2
  have hact : act.exec r = (.ok v, (act.exec r).2) := Prod.ext hout rfl
  rw [exec_bind_ok hact, ← List.append_assoc, ← hes]
  exact ⟨hout', hes'⟩

theorem adds_pure {α : Type} (v : α) : Adds (pure v : Act (Recorded Event σ) α) [] (.ok v) :=
  fun _ => ⟨rfl, (List.append_nil _).symm⟩

theorem Adds.bind_pure {α β : Type} {act : Act (Recorded Event σ) α} {es : List Event} {v : α}
    (h : Adds act es (.ok v)) (g : α → β) : Adds (do return g (← act)) es (.ok (g v)) := by
  rw [← List.append_nil es]
  exact h.bind (adds_pure (g v))

theorem adds_completeOne (hc : c.Answering a) (h : a.Survives i) :
    Adds (c.recorded.completeOne i) ((a.made i).map a.event) (.ok (a.visit i)) := by
  by_cases hp : i.isPopulated
  · rw [completeOne, if_pos hp, Answers.made, if_pos hp, a.visit_populated hp]
    exact adds_pure _
  intro r
  rw [Answers.Survives, Answers.made, if_neg hp] at h
  rw [exec_completeOne (recorded_answering hc) hp, Answers.made, if_neg hp]
  cases hf : (a.calls i).findSome? a.failure? with
  | none => exact ⟨rfl, events_foldl_after hc _ r⟩
  | some f =>
      dsimp only
      rw [if_pos (h f hf)]
      exact ⟨rfl, events_foldl_after hc _ r⟩

theorem survives_of_completeOne (hc : c.Answering a) {r r' : Run σ} {j : Completed}
    (h : (c.completeOne i).exec r = (.ok j, r')) : a.Survives i := by
  intro f hf
  by_cases hp : i.isPopulated
  · rw [Answers.made, if_pos hp] at hf
    cases hf
  · rw [Answers.made, if_neg hp] at hf
    rw [exec_completeOne hc hp, hf] at h
    dsimp only at h
    split at h
    · assumption
    · cases h

theorem adds_completeAll (hc : c.Answering a) (h : ∀ i ∈ items, a.Survives i) :
    Adds (items.mapM c.recorded.completeOne) ((items.flatMap a.made).map a.event)
      (.ok (items.map a.visit)) := by
  induction items with
  | nil => exact adds_pure []
  | cons i items ih =>
      obtain ⟨hi, hitems⟩ := List.forall_mem_cons.1 h
      rw [List.mapM_cons, List.flatMap_cons, List.map_append]
      exact (adds_completeOne hc hi).bind ((ih hitems).bind_pure _)

theorem survives_of_completeAll (hc : c.Answering a) {r r' : Run σ} {bs : List Completed}
    (h : (items.mapM c.completeOne).exec r = (.ok bs, r')) : ∀ i ∈ items, a.Survives i := by
  induction items generalizing r r' bs with
  | nil => exact fun _ hi => absurd hi List.not_mem_nil
  | cons i items ih =>
      rw [List.mapM_cons] at h
      obtain ⟨j, r₁, hone, h⟩ := exec_bind_eq_ok.1 h
      obtain ⟨js, r₂, hrest, -⟩ := exec_bind_eq_ok.1 h
      exact List.forall_mem_cons.2 ⟨survives_of_completeOne hc hone, ih hrest⟩

def AccessIs (c : Completer σ) (granted : Except Failure Bool) : Prop :=
  ∀ access, c.hasReadAccess = some access → ∀ r, (access.exec r).1 = granted

theorem exists_adds_mayRead {granted : Except Failure Bool} (h : c.AccessIs granted) :
    ∃ es out, Adds c.recorded.mayRead es out ∧ ∀ r, (c.mayRead.exec r).1 = out := by
  rw [mayRead, mayRead, recorded]
  cases haccess : c.hasReadAccess with
  | none => exact ⟨[], .ok true, adds_pure true, fun _ => rfl⟩
  | some access =>
      refine ⟨[.hasReadAccess granted], granted, fun r => ?_, h access haccess⟩
      have hr := h access haccess r.withoutEvents
      exact ⟨hr, congrArg (r.state.events ++ [.hasReadAccess ·]) hr⟩

theorem adds_complete_of_all (hall : items.all Item.isPopulated) :
    Adds (c.recorded.complete items) [] (.ok (.kept items)) := by
  rw [complete, if_pos hall]
  exact adds_pure _

theorem adds_complete_of_denied {es : List Event} (hall : ¬ items.all Item.isPopulated)
    (hread : Adds c.recorded.mayRead es (.ok false)) :
    Adds (c.recorded.complete items) es (.ok (.kept items)) := by
  rw [complete, if_neg hall, ← List.append_nil es]
  exact hread.bind (adds_pure _)

theorem adds_complete_of_granted {es : List Event} (hc : c.Answering a)
    (hall : ¬ items.all Item.isPopulated) (hread : Adds c.recorded.mayRead es (.ok true))
    (h : ∀ i ∈ items, a.Survives i) :
    Adds (c.recorded.complete items) (es ++ (items.flatMap a.made).map a.event)
      (.ok ⟨items.map a.visit, true⟩) := by
  rw [complete, if_neg hall]
  exact hread.bind ((adds_completeAll hc h).bind_pure _)

theorem exec_complete_of_adds {es : List Event} {out : Except Failure Batch}
    (h : Adds (c.recorded.complete items) es out) (s : Run σ) :
    ∃ s', (c.complete items).exec s = (out, s') ∧ c.events items s = es := by
  obtain ⟨hout, hes⟩ := h s.recording
  have hexec := mirrors_complete c items s.recording
  rw [hout] at hexec
  exact ⟨_, hexec.symm, hes⟩

def Repeats (c : Completer σ) (items items' : List Item) (r s : Run σ) : Prop :=
  ∃ b s', (c.complete items').exec s = (.ok b, s') ∧ b.items.map Completed.item = items' ∧
    (c.events items' s).Sublist (c.events items r)

theorem repeats_kept {es : List Event}
    (h : Adds (c.recorded.complete items) es (.ok (.kept items))) (r s : Run σ) :
    c.Repeats items items r s := by
  obtain ⟨s', hexec, hs⟩ := exec_complete_of_adds h s
  obtain ⟨r', -, hr⟩ := exec_complete_of_adds h r
  refine ⟨_, s', hexec, kept_items items, ?_⟩
  rw [hs, hr]

theorem sublist_made_completion (a : Answers) (items : List Item) :
    ((items.map a.completion).flatMap a.made).Sublist (items.flatMap a.made) := by
  induction items with
  | nil => exact List.Sublist.refl _
  | cons i items ih => exact (a.made_completion_sublist i).append ih

theorem repeats_completion {es : List Event} (hc : c.Answering a)
    (hall : ¬ items.all Item.isPopulated) (hread : Adds c.recorded.mayRead es (.ok true))
    (h : ∀ i ∈ items, a.Survives i) (r s : Run σ) :
    c.Repeats items (items.map a.completion) r s := by
  obtain ⟨-, -, hr⟩ := exec_complete_of_adds (adds_complete_of_granted hc hall hread h) r
  by_cases hagain : (items.map a.completion).all Item.isPopulated
  · obtain ⟨s', hexec, hs⟩ := exec_complete_of_adds (adds_complete_of_all hagain) s
    refine ⟨_, s', hexec, kept_items _, ?_⟩
    rw [hs]
    exact List.nil_sublist _
  · have hsurvive : ∀ i ∈ items.map a.completion, a.Survives i :=
      List.forall_mem_map.2 fun i hi => (h i hi).completion
    obtain ⟨s', hexec, hs⟩ :=
      exec_complete_of_adds (adds_complete_of_granted hc hagain hread hsurvive) s
    refine ⟨_, s', hexec, ?_, ?_⟩
    · rw [map_visit, List.map_map]
      exact List.map_congr_left fun i _ => a.completion_completion i
    · rw [hs, hr]
      exact (List.Sublist.refl es).append ((sublist_made_completion a items).map a.event)

/-- When every question always has the same answer, completing what was completed gives the same
items, and asks some of what was asked before, in the same order. -/
theorem complete_idempotent {granted : Except Failure Bool} (hc : c.Answering a)
    (haccess : c.AccessIs granted) {r r' : Run σ} {b : Batch}
    (h : (c.complete items).exec r = (.ok b, r')) (s : Run σ) :
    ∃ b' s', (c.complete (b.items.map Completed.item)).exec s = (.ok b', s') ∧
      b'.items.map Completed.item = b.items.map Completed.item ∧
      (c.events (b.items.map Completed.item) s).Sublist (c.events items r) := by
  have hcompletes {es : List Event} {bs : Batch}
      (hadds : Adds (c.recorded.complete items) es (.ok bs)) : bs = b := by
    obtain ⟨r₁, hexec, -⟩ := exec_complete_of_adds hadds r
    cases hexec.symm.trans h
    rfl
  by_cases hall : items.all Item.isPopulated
  · obtain rfl := hcompletes (adds_complete_of_all hall)
    rw [kept_items]
    exact repeats_kept (adds_complete_of_all hall) r s
  obtain ⟨es, out, hread, hmay⟩ := exists_adds_mayRead haccess
  rw [complete, if_neg hall] at h
  obtain ⟨given, r₁, hgiven, h⟩ := exec_bind_eq_ok.1 h
  obtain rfl : .ok given = out := (congrArg Prod.fst hgiven).symm.trans (hmay r)
  cases given with
  | false =>
      obtain rfl := hcompletes (adds_complete_of_denied hall hread)
      rw [kept_items]
      exact repeats_kept (adds_complete_of_denied hall hread) r s
  | true =>
      obtain ⟨bs, r₂, hbs, -⟩ := exec_bind_eq_ok.1 h
      have hsurvive := survives_of_completeAll hc hbs
      obtain rfl := hcompletes (adds_complete_of_granted hc hall hread hsurvive)
      rw [map_visit]
      exact repeats_completion hc hall hread hsurvive r s

end Runs

theorem ofAnswers_accessIs {σ : Type} (a : Answers) (granted : Bool) :
    (ofAnswers a (some granted) : Completer σ).AccessIs (.ok granted) := by
  rintro access ⟨⟩ r
  rfl

/-- What the sample becomes: the first item is populated, the second could not be completed, and the
third has its sides but no size. -/
def sampleCompleted : List Completed :=
  [⟨⟨"blob:a", "image/png", 5, 3, 2, 7, none, none⟩, true⟩,
    ⟨⟨"far", "image/png", 4, 0, 9, 0, none, none⟩, false⟩,
    ⟨⟨"near", "image/png", 3, 3, 2, -1, none, none⟩, true⟩]

theorem complete_idempotent_sample :
    (ofAnswers sampleAnswers (some true) : Completer Unit).Answering sampleAnswers ∧
    (ofAnswers sampleAnswers (some true) : Completer Unit).AccessIs (.ok true) ∧
    ∃ r', ((ofAnswers sampleAnswers (some true)).complete sampleItems).exec ⟨(), []⟩ =
        (.ok ⟨sampleCompleted, true⟩, r') ∧
      ∃ b' s', ((ofAnswers sampleAnswers (some true)).complete
          (sampleCompleted.map Completed.item)).exec r' = (.ok b', s') ∧
        b'.items.map Completed.item = sampleCompleted.map Completed.item ∧
        ((ofAnswers sampleAnswers (some true)).events (sampleCompleted.map Completed.item)
          r').Sublist ((ofAnswers sampleAnswers (some true)).events sampleItems ⟨(), []⟩) := by
  have hc : (ofAnswers sampleAnswers (some true) : Completer Unit).Answering sampleAnswers :=
    ofAnswers_answering _ _
  have haccess := ofAnswers_accessIs (σ := Unit) sampleAnswers true
  obtain ⟨r', h⟩ : ∃ r', ((ofAnswers sampleAnswers (some true)).complete sampleItems).exec
      (⟨(), []⟩ : Run Unit) = (.ok ⟨sampleCompleted, true⟩, r') := ⟨_, rfl⟩
  exact ⟨hc, haccess, r', h, complete_idempotent hc haccess h r'⟩

end MediaCatalog.Completer
