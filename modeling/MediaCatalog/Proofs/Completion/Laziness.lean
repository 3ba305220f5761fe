import MediaCatalog.Proofs.Completion.Record

namespace MediaCatalog

namespace Act

variable {ε σ α β : Type} {act : Act (Recorded ε σ) α} {next : α → Act (Recorded ε σ) β}
  {P : List ε → Except Failure α → Prop} {Q : List ε → Except Failure β → Prop}

/-- The events that the action adds, and how it ends, are of a kind. -/
def Traces (P : List ε → Except Failure α → Prop) (act : Act (Recorded ε σ) α) : Prop :=
  ∀ r, ∃ es, (act.exec r).2.state.events = r.state.events ++ es ∧ P es (act.exec r).1

theorem traces_pure {a : α} (h : P [] (.ok a)) : Traces P (pure a : Act (Recorded ε σ) α) :=
  fun _ => ⟨[], (List.append_nil _).symm, h⟩

theorem traces_noted {note : Except Failure α → ε} (h : ∀ out, P [note out] out) (act : Act σ α) :
    Traces P (noted note act) := fun _ => ⟨_, rfl, h _⟩

theorem traces_log {P : List ε → Except Failure Unit → Prop} (h : P [] (.ok ()))
    (line : Log.Record) : Traces P (log line : Act (Recorded ε σ) Unit) :=
  fun _ => ⟨[], (List.append_nil _).symm, h⟩

theorem Traces.bind (h : Traces P act) (hfail : ∀ es f, P es (.error f) → Q es (.error f))
    (hnext : ∀ es a, P es (.ok a) → Traces (fun es' out => Q (es ++ es') out) (next a)) :
    Traces Q (act >>= next) := by
  intro r
  obtain ⟨es, hes, hout⟩ := h r
  rw [exec_bind]
  rcases hact : act.exec r with ⟨f | a, r'⟩ <;> rw [hact] at hes hout
  · exact ⟨es, hes, hfail es f hout⟩
  · obtain ⟨es', hes', hout'⟩ := hnext es a hout r'
    refine ⟨es ++ es', ?_, hout'⟩
    rw [← List.append_assoc, ← hes]
    exact hes'

theorem Traces.bind_pure {g : α → β} (h : Traces P act)
    (hfail : ∀ es f, P es (.error f) → Q es (.error f))
    (hok : ∀ es a, P es (.ok a) → Q es (.ok (g a))) : Traces Q (do return g (← act)) := by
  refine h.bind hfail fun es a ha => traces_pure ?_
  rw [List.append_nil]
  exact hok es a ha

theorem Traces.recover {covers : Failure → Bool} {handler : Failure → Act (Recorded ε σ) α}
    {P' : List ε → Except Failure α → Prop} (h : Traces P act)
    (hok : ∀ es a, P es (.ok a) → P' es (.ok a))
    (hpass : ∀ es f, covers f = false → P es (.error f) → P' es (.error f))
    (hhandler : ∀ es f, covers f → P es (.error f) →
      Traces (fun es' out => P' (es ++ es') out) (handler f)) :
    Traces P' (recover act covers handler) := by
  intro r
  obtain ⟨es, hes, hout⟩ := h r
  rw [exec_recover]
  rcases hact : act.exec r with ⟨f | a, r'⟩ <;> rw [hact] at hes hout
  · dsimp only
    split
    · rename_i hf
      obtain ⟨es', hes', hout'⟩ := hhandler es f hf hout r'
      refine ⟨es ++ es', ?_, hout'⟩
      rw [← List.append_assoc, ← hes]
      exact hes'
    · rename_i hf
      exact ⟨es, hes, hpass es f (Bool.eq_false_iff.2 hf) hout⟩
  · exact ⟨es, hes, hok es a hout⟩

end Act

namespace Completer

open Act

variable {σ : Type} {i : Item} {l : String} {es : List Event}

def sizeEvent (here : Bool) (l : String) (out : Except Failure (Option Int)) : Event :=
  if here then .sizeOf l out else .metadataQuery l out

/-- How a size is looked for, and the failure that cuts the search short. -/
inductive SizeSearch (l : String) : List Event → Option Failure → Prop
  | astray (f : Failure) : SizeSearch l [.isLocal l (.error f)] (some f)
  | failed (here : Bool) (f : Failure) :
      SizeSearch l [.isLocal l (.ok here), sizeEvent here l (.error f)] (some f)
  | told (here : Bool) {size : Int} : 0 < size →
      SizeSearch l [.isLocal l (.ok here), sizeEvent here l (.ok (some size))] none
  | measured (here : Bool) {n : Option Int} (out : Except Failure Int) : (∀ size ∈ n, ¬ 0 < size) →
      SizeSearch l [.isLocal l (.ok here), sizeEvent here l (.ok n), .resourceSize l out]
        (failed? out)

inductive SizeCourse (i : Item) : List Event → Option Failure → Prop
  | known : 0 < i.size → SizeCourse i [] none
  | unknown {es : List Event} {cut : Option Failure} : ¬ 0 < i.size →
      SizeSearch i.location es cut → SizeCourse i es cut

inductive SidesCourse (i : Item) : List Event → Option Failure → Prop
  | known : 0 < i.width → 0 < i.height → SidesCourse i [] none
  | unknown (out : Except Failure (Int × Int)) : ¬ (0 < i.width ∧ 0 < i.height) →
      SidesCourse i [.dimensionsOf i.mimeType i.location out] (failed? out)

/-- The size comes first, and the sides only if nothing failed by then. -/
inductive ItemCourse (i : Item) : List Event → Option Failure → Prop
  | populated : i.isPopulated → ItemCourse i [] none
  | unsized {es : List Event} {f : Failure} : ¬ i.isPopulated → SizeCourse i es (some f) →
      ItemCourse i es (some f)
  | sized {es es' : List Event} {cut : Option Failure} : ¬ i.isPopulated → SizeCourse i es none →
      SidesCourse i es' cut → ItemCourse i (es ++ es') cut

/-- One item after the other, up to the first failure that is not the system's. -/
inductive Course : List Item → List Event → Prop
  | nil : Course [] []
  | cons {i : Item} {items : List Item} {es es' : List Event} {cut : Option Failure} :
      ItemCourse i es cut → (∀ f ∈ cut, f.isSystem) → Course items es' →
      Course (i :: items) (es ++ es')
  | stopped {i : Item} {items : List Item} {es : List Event} {f : Failure} :
      ItemCourse i es (some f) → f.isSystem = false → Course (i :: items) es

section Calls

theorem isCall_sizeEvent (here : Bool) (out : Except Failure (Option Int)) :
    (sizeEvent here l out).isCall := by
  cases here <;> rfl

theorem SizeSearch.isCall {cut : Option Failure} (h : SizeSearch l es cut) :
    ∀ e ∈ es, e.isCall := by
  have hlocal (out : Except Failure Bool) : (Event.isLocal l out).isCall := rfl
  have hlast (out : Except Failure Int) : (Event.resourceSize l out).isCall := rfl
  cases h <;> simp [hlocal, hlast, isCall_sizeEvent]

theorem ItemCourse.isCall {cut : Option Failure} (h : ItemCourse i es cut) :
    ∀ e ∈ es, e.isCall := by
  have hsize {es : List Event} {cut : Option Failure} (h : SizeCourse i es cut) :
      ∀ e ∈ es, e.isCall := by
    cases h with
    | known => simp
    | unknown _ hsearch => exact hsearch.isCall
  cases h with
  | populated => simp
  | unsized _ h => exact hsize h
  | sized _ h hsides =>
      refine List.forall_mem_append.2 ⟨hsize h, ?_⟩
      cases hsides with
      | known => simp
      | unknown out => exact List.forall_mem_singleton.2 rfl

theorem Course.isCall {items : List Item} (h : Course items es) : ∀ e ∈ es, e.isCall := by
  induction h with
  | nil => simp
  | cons hitem _ _ ih => exact List.forall_mem_append.2 ⟨hitem.isCall, ih⟩
  | stopped hitem _ => exact hitem.isCall

end Calls

section Runs

variable (c : Completer σ)

theorem traces_resourceSize (here : Bool) {n : Option Int} (hn : ∀ size ∈ n, ¬ 0 < size) :
    Traces (fun es out => SizeSearch l
        ([.isLocal l (.ok here), sizeEvent here l (.ok n)] ++ es) (failed? out))
      (firstKnownSize [fun l => do return some (← c.recorded.probe.resourceSize l)] l) := by
  rw [firstKnownSize, bind_assoc]
  refine (traces_noted (P := fun es out => es = [.resourceSize l out])
    (fun _ => rfl) _).bind ?_ fun es size hes => ?_
  · rintro es f rfl
    exact .measured here (.error f) hn
  · subst hes
    rw [pure_bind]
    dsimp only
    split <;> exact traces_pure (.measured here (.ok size) hn)

theorem traces_firstKnownSize (here : Bool) {ask : String → Act (Recorded Event σ) (Option Int)}
    (hask : Traces (fun es out => es = [sizeEvent here l out]) (ask l)) :
    Traces (fun es out => SizeSearch l ([.isLocal l (.ok here)] ++ es) (failed? out))
      (firstKnownSize [ask, fun l => do return some (← c.recorded.probe.resourceSize l)] l) := by
  rw [firstKnownSize]
  refine hask.bind ?_ fun es n hes => ?_
  · rintro es f rfl
    exact .failed here f
  subst hes
  cases n with
  | none => exact traces_resourceSize c here (by simp)
  | some size =>
      dsimp only
      split
      · rename_i hsize
        exact traces_pure (.told here hsize)
      · rename_i hsize
        exact traces_resourceSize c here (by simpa using hsize)

theorem traces_resolveSize (i : Item) :
    Traces (fun es out => SizeCourse i es (failed? out)) (c.recorded.resolveSize i) := by
  rw [resolveSize]
  split
  · rename_i hsize
    exact traces_pure (.known hsize)
  rename_i hsize
  rw [sizeSources, bind_assoc]
  refine (traces_noted (P := fun es out => es = [.isLocal i.location out])
    (fun _ => rfl) _).bind ?_ fun es here hes => ?_
  · rintro es f rfl
    exact .unknown hsize (.astray f)
  subst hes
  have hsearch {ask : String → Act (Recorded Event σ) (Option Int)}
      (hask : Traces (fun es out => es = [sizeEvent here i.location out]) (ask i.location)) :
      Traces (fun es out => SizeCourse i ([.isLocal i.location (.ok here)] ++ es) (failed? out))
        (do return (← firstKnownSize [ask, fun l => do
          return some (← c.recorded.probe.resourceSize l)] i.location).getD i.size) := by
    exact (traces_firstKnownSize c here hask).bind_pure (fun es f h => .unknown hsize h)
      fun es n h => .unknown hsize h
  cases here with
  | false => exact hsearch (traces_noted (fun _ => rfl) _)
  | true => exact hsearch (traces_noted (fun _ => rfl) _)

theorem traces_resolveDimensions (i : Item) :
    Traces (fun es out => SidesCourse i es (failed? out)) (c.recorded.resolveDimensions i) := by
  rw [resolveDimensions]
  split
  · rename_i hsides
    rw [Bool.and_eq_true, decide_eq_true_iff, decide_eq_true_iff] at hsides
    exact traces_pure (.known hsides.1 hsides.2)
  · rename_i hsides
    rw [Bool.and_eq_true, decide_eq_true_iff, decide_eq_true_iff] at hsides
    exact traces_noted (fun out => .unknown out hsides) _

theorem traces_resolve (hpopulated : ¬ i.isPopulated) :
    Traces (fun es out => ItemCourse i es (failed? out)) (c.recorded.resolve i) := by
  refine (traces_resolveSize c i).bind (fun es f h => .unsized hpopulated h) fun es size hsize => ?_
  exact (traces_resolveDimensions c i).bind_pure (fun es' f h => .sized hpopulated hsize h)
    fun es' d h => .sized hpopulated hsize h

theorem traces_completeOne (i : Item) :
    Traces (fun es out => ∃ cut, ItemCourse i es cut ∧
        failed? out = cut.filter fun f => !f.isSystem) (c.recorded.completeOne i) := by
  rw [completeOne]
  split
  · rename_i hpopulated
    exact traces_pure ⟨none, .populated hpopulated, rfl⟩
  rename_i hpopulated
  have hresolved : Traces (fun es out => ItemCourse i es (failed? out))
      (do return Completed.mk (← c.recorded.resolve i) true) :=
    (traces_resolve c hpopulated).bind_pure (fun es f h => h) fun es j h => h
  refine hresolved.recover (fun es j h => ⟨none, h, rfl⟩)
    (fun es f hf h => ⟨some f, h, ?_⟩) fun es f hf h => ?_
  · rw [Option.filter_some, hf]
    rfl
  · refine (traces_log (P := fun es' out => es' = [] ∧ out = .ok ()) ⟨rfl, rfl⟩ _).bind_pure
      (by rintro _ _ ⟨-, ⟨⟩⟩) ?_
    rintro _ _ ⟨rfl, -⟩
    refine ⟨some f, by rwa [List.append_nil], ?_⟩
    rw [Option.filter_some, hf]
    rfl

theorem traces_completeAll (items : List Item) :
    Traces (fun es _ => Course items es) (items.mapM c.recorded.completeOne) := by
  induction items with
  | nil => exact traces_pure .nil
  | cons i items ih =>
      rw [List.mapM_cons]
      refine (traces_completeOne c i).bind ?_ ?_
      · rintro es f ⟨cut, hitem, hcut⟩
        obtain ⟨rfl, hf⟩ := Option.filter_eq_some_iff.1 hcut.symm
        exact .stopped hitem (by simpa using hf)
      · rintro es j ⟨cut, hitem, hcut⟩
        have hsystem : ∀ f ∈ cut, f.isSystem := by
          simpa using Option.filter_eq_none_iff.1 hcut.symm
        exact ih.bind_pure (fun es' f h => .cons hitem hsystem h)
          fun es' js h => .cons hitem hsystem h

theorem traces_mayRead :
    Traces (fun es _ => ∀ e ∈ es, e.isCall = false) c.recorded.mayRead := by
  rw [mayRead, recorded]
  cases c.hasReadAccess with
  | none => exact traces_pure (by simp)
  | some access => exact traces_noted (fun _ => by simp [Event.isCall, Event.call?]) access

end Runs

theorem filter_isCall_of_none (h : ∀ e ∈ es, e.isCall = false) : es.filter Event.isCall = [] :=
  List.filter_eq_nil_iff.2 fun e he => Bool.eq_false_iff.1 (h e he)

variable {c : Completer σ} {r : Run σ} {items : List Item}

theorem mayRead_recorded (c : Completer σ) (r : Run σ) :
    (c.recorded.mayRead.exec r.recording).1 = (c.mayRead.exec r).1 :=
  congrArg Prod.fst (mirrors_mayRead c r.recording)

theorem isGranted_iff : c.IsGranted r ↔ (c.mayRead.exec r).1 = .ok true := by
  refine ⟨mayRead_of_isGranted, fun h access haccess => ?_⟩
  rwa [mayRead, haccess] at h

theorem events_of_not_isGranted (h : ¬ c.IsGranted r) :
    (c.events items r).filter Event.isCall = [] := by
  by_cases hall : items.all Item.isPopulated
  · rw [events, complete_of_all hall]
    rfl
  obtain ⟨es, hes, hnone⟩ := traces_mayRead c r.recording
  rw [isGranted_iff, ← mayRead_recorded] at h
  have hevents : c.events items r = es := by
    rw [events, complete, if_neg hall, exec_bind]
    rcases hread : c.recorded.mayRead.exec r.recording with ⟨f | _ | _, r'⟩ <;>
      rw [hread] at hes h
    · exact hes
    · exact hes
    · exact absurd rfl h
  rw [hevents]
  exact filter_isCall_of_none hnone

theorem course_of_isGranted (hall : ¬ items.all Item.isPopulated) (h : c.IsGranted r) :
    Course items ((c.events items r).filter Event.isCall) := by
  obtain ⟨es, hes, hnone⟩ := traces_mayRead c r.recording
  rw [isGranted_iff, ← mayRead_recorded] at h
  have hread : c.recorded.mayRead.exec r.recording =
      (.ok true, (c.recorded.mayRead.exec r.recording).2) := Prod.ext h rfl
  have hbatch : Traces (fun es _ => Course items es)
      (do return Batch.mk (← items.mapM c.recorded.completeOne) true) :=
    (traces_completeAll c items).bind_pure (fun es f h => h) fun es bs h => h
  obtain ⟨es', hes', hcourse⟩ := hbatch (c.recorded.mayRead.exec r.recording).2
  have hevents : c.events items r = es ++ es' := by
    rw [events, complete, if_neg hall, exec_bind_ok hread, if_pos rfl, hes', hes]
    rfl
  rw [hevents, List.filter_append, filter_isCall_of_none hnone, List.nil_append,
    List.filter_eq_self.2 hcourse.isCall]
  exact hcourse

/-- Nothing is asked of the authority and the probe when all items are populated or read access is
not given; else what is asked follows the course of the items. To record it changes nothing. -/
theorem complete_isLazy (c : Completer σ) (items : List Item) (r : Run σ) :
    Mirrors (c.recorded.complete items) (c.complete items) ∧
    (items.all Item.isPopulated ∨ ¬ c.IsGranted r →
      (c.events items r).filter Event.isCall = []) ∧
    (¬ items.all Item.isPopulated → c.IsGranted r →
      Course items ((c.events items r).filter Event.isCall)) := by
  refine ⟨mirrors_complete c items, ?_, course_of_isGranted⟩
  rintro (hall | hdenied)
  · rw [events, complete_of_all hall]
    rfl
  · exact events_of_not_isGranted hdenied

/-- A local blob gets its size from the authority, the sides of a remote picture are asked for in
vain, and a picture with one side is asked for both. -/
theorem complete_isLazy_sample :
    ¬ sampleItems.all Item.isPopulated ∧
    (ofAnswers sampleAnswers none : Completer Unit).IsGranted ⟨(), []⟩ ∧
    Course sampleItems
      [.isLocal "blob:a" (.ok true), .sizeOf "blob:a" (.ok (some 7)),
        .dimensionsOf "image/png" "blob:a" (.ok (3, 2)),
        .isLocal "far" (.ok false), .metadataQuery "far" (.ok none), .resourceSize "far" (.ok 0),
        .dimensionsOf "image/png" "far" (.error offline),
        .isLocal "near" (.ok false), .metadataQuery "near" (.ok none), .resourceSize "near" (.ok 0),
        .dimensionsOf "image/png" "near" (.ok (3, 2))] :=
  have hall : ¬ sampleItems.all Item.isPopulated := by decide
  have hgranted : (ofAnswers sampleAnswers none : Completer Unit).IsGranted ⟨(), []⟩ := by
    intro access h
    cases h
  ⟨hall, hgranted, (complete_isLazy _ sampleItems _).2.2 hall hgranted⟩

end Completer

end MediaCatalog
