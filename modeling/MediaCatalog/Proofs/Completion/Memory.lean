import MediaCatalog.Proofs.Completion.Batch
import MediaCatalog.Proofs.Completion.Files

namespace MediaCatalog

inductive Measure where
  | width
  | height
  | size
  deriving DecidableEq, Repr

def Measure.of : Measure → Item → Int
  | .width, i => i.width
  | .height, i => i.height
  | .size, i => i.size

namespace Item

variable {i j : Item}

def Knows (i : Item) (m : Measure) : Prop := 0 < m.of i

instance (i : Item) (m : Measure) : Decidable (i.Knows m) :=
  inferInstanceAs (Decidable (0 < m.of i))

def KnowsSides (i : Item) : Prop := i.Knows .width ∧ i.Knows .height

instance (i : Item) : Decidable i.KnowsSides :=
  inferInstanceAs (Decidable (i.Knows .width ∧ i.Knows .height))

def sides (i : Item) : Int × Int := (i.width, i.height)

def withSides (i : Item) (d : Int × Int) : Item := { i with width := d.1, height := d.2 }

theorem knows_congr_sides {m : Measure} (h : i.sides = j.sides) (hm : m ≠ .size) :
    i.Knows m ↔ j.Knows m := by
  obtain ⟨hw, hh⟩ := Prod.mk.inj h
  cases m with
  | width => exact iff_of_eq (congrArg (0 < ·) hw)
  | height => exact iff_of_eq (congrArg (0 < ·) hh)
  | size => exact absurd rfl hm

theorem knowsSides_of_isPopulated (h : i.isPopulated) : i.KnowsSides := by
  rw [isPopulated, Bool.and_eq_true, Bool.and_eq_true] at h
  exact ⟨of_decide_eq_true h.1.1, of_decide_eq_true h.1.2⟩

end Item

namespace Completer

open Act

variable {σ : Type} {c : Completer σ} {i : Item} {r r' : Run σ}

abbrev SystemOnly {α : Type} (act : Act σ α) : Prop := FailsOnly (fun f => f.isSystem) act

structure FailsBySystem (c : Completer σ) : Prop where
  isLocal : ∀ l, SystemOnly (c.authority.isLocal l)
  sizeOf : ∀ l, SystemOnly (c.authority.sizeOf l)
  metadataQuery : ∀ l, SystemOnly (c.probe.metadataQuery l)
  resourceSize : ∀ l, SystemOnly (c.probe.resourceSize l)
  dimensionsOf : ∀ mime l, SystemOnly (c.probe.dimensionsOf mime l)

theorem failsOnly_firstKnownSize {P : Failure → Prop} {l : String}
    {sources : List (String → Act σ (Option Int))} (h : ∀ ask ∈ sources, FailsOnly P (ask l)) :
    FailsOnly P (firstKnownSize sources l) := by
  induction sources with
  | nil => exact failsOnly_pure none
  | cons ask rest ih =>
      obtain ⟨hask, hrest⟩ := List.forall_mem_cons.1 h
      refine hask.bind fun n => ?_
      cases n with
      | none => exact ih hrest
      | some size =>
          dsimp only
          split
          · exact failsOnly_pure _
          · exact ih hrest

theorem FailsBySystem.sizeSources (hc : c.FailsBySystem) (l : String) :
    SystemOnly (c.sizeSources l) ∧
      Returns (fun sources => ∀ ask ∈ sources, SystemOnly (ask l)) (c.sizeSources l) := by
  have hlast : SystemOnly (do return some (← c.probe.resourceSize l)) :=
    (hc.resourceSize l).bind fun n => failsOnly_pure (some n)
  have hsources {first : String → Act σ (Option Int)} (hfirst : SystemOnly (first l)) :
      ∀ ask ∈ [first, fun l => do return some (← c.probe.resourceSize l)], SystemOnly (ask l) :=
    List.forall_mem_cons.2 ⟨hfirst, List.forall_mem_singleton.2 hlast⟩
  constructor
  · refine (hc.isLocal l).bind fun here => ?_
    cases here <;> exact failsOnly_pure _
  · refine (returns_any _).bind fun here _ => ?_
    cases here with
    | false => exact returns_pure (hsources (hc.metadataQuery l))
    | true => exact returns_pure (hsources (hc.sizeOf l))

theorem FailsBySystem.resolveSize (hc : c.FailsBySystem) (i : Item) :
    SystemOnly (c.resolveSize i) := by
  obtain ⟨hasked, hsources⟩ := hc.sizeSources i.location
  rw [Completer.resolveSize]
  split
  · exact failsOnly_pure _
  · exact hasked.bind_returns hsources fun sources h =>
      (failsOnly_firstKnownSize h).bind fun n => failsOnly_pure (n.getD i.size)

theorem FailsBySystem.resolveDimensions (hc : c.FailsBySystem) (i : Item) :
    SystemOnly (c.resolveDimensions i) := by
  rw [Completer.resolveDimensions]
  split
  · exact failsOnly_pure _
  · exact hc.dimensionsOf i.mimeType i.location

theorem FailsBySystem.completeOne (hc : c.FailsBySystem) (i : Item) :
    Succeeds (c.completeOne i) := by
  have hresolved : SystemOnly (c.resolve i) :=
    (hc.resolveSize i).bind fun _ => (hc.resolveDimensions i).bind fun _ => failsOnly_pure _
  rw [Completer.completeOne]
  split
  · exact succeeds_pure _
  · exact (hresolved.bind fun _ => failsOnly_pure _).succeeds_recover fun f =>
      (succeeds_log _).bind fun _ => succeeds_pure _

theorem returns_firstKnownSize (sources : List (String → Act σ (Option Int))) (l : String) :
    Returns (fun n => ∀ size ∈ n, 0 < size) (firstKnownSize sources l) := by
  induction sources with
  | nil => exact returns_pure (by simp)
  | cons ask rest ih =>
      refine (returns_any (ask l)).bind fun n _ => ?_
      cases n with
      | none => exact ih
      | some size =>
          dsimp only
          split
          · exact returns_pure (by simpa)
          · exact ih

theorem returns_resolveSize (c : Completer σ) (i : Item) :
    Returns (fun n => n = i.size ∨ ¬ i.Knows .size ∧ 0 < n) (c.resolveSize i) := by
  rw [resolveSize]
  split
  · exact returns_pure (.inl rfl)
  · rename_i hsize
    refine (returns_any _).bind fun sources _ =>
      (returns_firstKnownSize sources i.location).bind fun n hn => returns_pure ?_
    cases n with
    | none => exact .inl rfl
    | some n => exact .inr ⟨hsize, hn n rfl⟩

/-- What the probe tells of the sides once the size is looked up, if it comes to an answer. -/
def toldSides (c : Completer σ) (r : Run σ) (i : Item) : Option (Int × Int) :=
  match (c.resolveSize i).exec r with
  | (.ok _, r') => ((c.probe.dimensionsOf i.mimeType i.location).exec r').1.toOption
  | (.error _, _) => none

theorem resolveDimensions_eq (c : Completer σ) (i : Item) :
    c.resolveDimensions i =
      if i.KnowsSides then pure i.sides else c.probe.dimensionsOf i.mimeType i.location := by
  rw [resolveDimensions]
  by_cases h : i.KnowsSides
  · rw [if_pos h, if_pos (by simpa [Item.KnowsSides, Item.Knows, Measure.of] using h)]
    rfl
  · rw [if_neg h, if_neg (by simpa [Item.KnowsSides, Item.Knows, Measure.of] using h)]

theorem toldSides_eq_some {d : Int × Int} : c.toldSides r i = some d ↔
    ∃ n r₁ r₂, (c.resolveSize i).exec r = (.ok n, r₁) ∧
      (c.probe.dimensionsOf i.mimeType i.location).exec r₁ = (.ok d, r₂) := by
  rw [toldSides]
  constructor
  · intro h
    rcases hsize : (c.resolveSize i).exec r with ⟨f | n, r₁⟩ <;> rw [hsize] at h
    · cases h
    · dsimp only at h
      rcases hsides : (c.probe.dimensionsOf i.mimeType i.location).exec r₁ with ⟨f | d', r₂⟩ <;>
        rw [hsides] at h <;> cases h
      exact ⟨n, r₁, r₂, rfl, hsides⟩
  · rintro ⟨n, r₁, r₂, hsize, hsides⟩
    rw [hsize]
    dsimp only
    rw [hsides]
    rfl

/-- What completing an item leaves of its size and of its sides; the rest stays. -/
structure Fills (c : Completer σ) (r : Run σ) (i j : Item) : Prop where
  rest : { i with width := j.width, height := j.height, size := j.size } = j
  size : j.size = i.size ∨ ¬ i.Knows .size ∧ j.Knows .size
  sides : j.sides = if i.KnowsSides then i.sides else (c.toldSides r i).getD i.sides

theorem fills_self (h : i.KnowsSides ∨ c.toldSides r i = none) : c.Fills r i i where
  rest := rfl
  size := .inl rfl
  sides := by
    rcases h with h | h
    · rw [if_pos h]
    · rw [h, Option.getD_none, ite_self]

theorem fills_of_resolve {j : Item} (h : (c.resolve i).exec r = (.ok j, r')) : c.Fills r i j := by
  obtain ⟨n, r₁, hsize, h⟩ := exec_bind_eq_ok.1 h
  obtain ⟨d, r₂, hsides, h⟩ := exec_bind_eq_ok.1 h
  cases h
  refine ⟨rfl, returns_resolveSize c i r n r₁ hsize, ?_⟩
  rw [resolveDimensions_eq] at hsides
  by_cases hk : i.KnowsSides
  · rw [if_pos hk] at hsides ⊢
    cases hsides
    rfl
  · rw [if_neg hk] at hsides ⊢
    rw [toldSides_eq_some.2 ⟨n, r₁, _, hsize, hsides⟩]
    rfl

theorem fills_of_resolve_error {f : Failure} (h : (c.resolve i).exec r = (.error f, r')) :
    c.Fills r i i := by
  refine fills_self ?_
  by_cases hk : i.KnowsSides
  · exact .inl hk
  · refine .inr ?_
    cases htold : c.toldSides r i with
    | none => rfl
    | some d =>
        -- Nothing can fail any more once the probe has answered.
        obtain ⟨n, r₁, r₂, hsize, hsides⟩ := toldSides_eq_some.1 htold
        rw [resolve, exec_bind_ok hsize, resolveDimensions_eq, if_neg hk, exec_bind_ok hsides] at h
        cases h

theorem completeOne_fills {j : Completed} (h : (c.completeOne i).exec r = (.ok j, r')) :
    c.Fills r i j.item := by
  rw [completeOne] at h
  split at h
  · cases h
    exact fills_self (.inl (Item.knowsSides_of_isPopulated ‹_›))
  · rw [exec_recover, exec_bind] at h
    rcases hresolve : (c.resolve i).exec r with ⟨f | k, r₁⟩ <;> rw [hresolve] at h
    · dsimp only at h
      split at h
      · cases h
        exact fills_of_resolve_error hresolve
      · cases h
    · cases h
      exact fills_of_resolve hresolve

theorem Fills.forgets_iff {j : Item} (h : c.Fills r i j) {m : Measure} (hm : i.Knows m) :
    ¬ j.Knows m ↔
      ¬ i.KnowsSides ∧ ∃ d, c.toldSides r i = some d ∧ ¬ (i.withSides d).Knows m := by
  by_cases hsize : m = .size
  · subst hsize
    have hj : j.Knows .size := by
      rcases h.size with hsame | ⟨-, hj⟩
      · rwa [Item.Knows, Measure.of, hsame]
      · exact hj
    have hd (d : Int × Int) : (i.withSides d).Knows .size := hm
    simp [hj, hd]
  · have hsides := h.sides
    by_cases hk : i.KnowsSides
    · rw [if_pos hk] at hsides
      simp [Item.knows_congr_sides hsides hsize, hm, hk]
    · rw [if_neg hk] at hsides
      cases htold : c.toldSides r i with
      | none =>
          rw [htold] at hsides
          simp [Item.knows_congr_sides hsides hsize, hm]
      | some d =>
          rw [htold] at hsides
          have hd : j.sides = (i.withSides d).sides := hsides
          simp [Item.knows_congr_sides hd hsize, hk]

theorem completeAll_of_all {items : List Item} (h : items.all Item.isPopulated) (r : Run σ) :
    (items.mapM c.completeOne).exec r = (.ok (Batch.kept items).items, r) := by
  induction items with
  | nil => rfl
  | cons i items ih =>
      rw [List.all_cons, Bool.and_eq_true] at h
      have hone : (c.completeOne i).exec r = (.ok ⟨i, false⟩, r) := by
        rw [completeOne, if_pos h.1, exec_pure]
      rw [List.mapM_cons, exec_bind_ok hone, exec_bind_ok (ih h.2), exec_pure]
      rfl

theorem complete_of_mapM (h : c.IsGranted r) {items : List Item} {bs : List Completed}
    (hbs : (items.mapM c.completeOne).exec (c.mayRead.exec r).2 = (.ok bs, r')) :
    ∃ b, ((c.complete items).exec r).1 = .ok b ∧ b.items = bs := by
  by_cases hall : items.all Item.isPopulated
  · rw [completeAll_of_all hall] at hbs
    refine ⟨.kept items, by rw [complete_of_all hall], ?_⟩
    exact Except.ok.inj (congrArg Prod.fst hbs)
  · have hread : c.mayRead.exec r = (.ok true, (c.mayRead.exec r).2) :=
      Prod.ext (mayRead_of_isGranted h) rfl
    refine ⟨⟨bs, true⟩, ?_, rfl⟩
    rw [complete, if_neg hall, exec_bind_ok hread, if_pos rfl, exec_bind_ok hbs, exec_pure]

/-- The probe does not answer unless it knows both sides. -/
def AnswersFully (c : Completer σ) : Prop :=
  ∀ mime l, Returns (fun d => 0 < d.1 ∧ 0 < d.2) (c.probe.dimensionsOf mime l)

theorem AnswersFully.knows {j : Item} (hfull : c.AnswersFully) (h : c.Fills r i j) (m : Measure)
    (hm : i.Knows m) : j.Knows m := by
  by_contra hj
  obtain ⟨-, d, htold, hd⟩ := (h.forgets_iff hm).1 hj
  obtain ⟨-, r₁, r₂, -, hsides⟩ := toldSides_eq_some.1 htold
  have hpos := hfull i.mimeType i.location r₁ d r₂ hsides
  cases m with
  | width => exact hd hpos.1
  | height => exact hd hpos.2
  | size => exact hd hm

/-- Completing items gives an answer for each. A size changes only from unknown to known. Of what is
known nothing is forgotten but a side that was known alone, when the probe answers and does not know
that side; so nothing at all, as long as the probe never answers without knowing both. -/
theorem complete_forgets_iff (hc : c.FailsBySystem) (h : c.IsGranted r) (items : List Item) :
    ∃ b, ((c.complete items).exec r).1 = .ok b ∧
      InTurn c.completeOne (fun r' i j => c.Fills r' i j.item ∧ ∀ m, i.Knows m →
          (¬ j.item.Knows m ↔ ¬ i.KnowsSides ∧ ∃ d, c.toldSides r' i = some d ∧
            ¬ (i.withSides d).Knows m))
        (c.mayRead.exec r).2 items b.items ∧
      (c.AnswersFully →
        List.Forall₂ (fun i j => ∀ m, i.Knows m → j.item.Knows m) items b.items) := by
  obtain ⟨bs, r', hbs, hturn⟩ := exec_mapM_inTurn (P := fun r i j => c.Fills r i j.item)
    hc.completeOne (fun i r j r' => completeOne_fills) items (c.mayRead.exec r).2
  obtain ⟨b, hb, rfl⟩ := complete_of_mapM h hbs
  refine ⟨b, hb, hturn.imp fun r i j hfills => ⟨hfills, fun m hm => hfills.forgets_iff hm⟩, ?_⟩
  intro hfull
  exact hturn.forall₂ fun r i j hfills => hfull.knows hfills

theorem failed_of_exec {α : Type} {act : Act σ α} {out : Except Failure α} {f : Failure}
    (hout : ∀ r, (act.exec r).1 = out) (h : act.exec r = (.error f, r')) :
    failed? out = some f := by
  rw [← hout r, h]
  rfl

theorem Answering.failsBySystem {a : Answers} (hc : c.Answering a) (ha : a.FailsBySystem) :
    c.FailsBySystem where
  isLocal l _ f _ h := ha (.isLocal l) f (failed_of_exec (hc.isLocal l) h)
  sizeOf l _ f _ h := ha (.sizeOf l) f (failed_of_exec (hc.sizeOf l) h)
  metadataQuery l _ f _ h := ha (.metadataQuery l) f (failed_of_exec (hc.metadataQuery l) h)
  resourceSize l _ f _ h := ha (.resourceSize l) f (failed_of_exec (hc.resourceSize l) h)
  dimensionsOf mime l _ f _ h :=
    ha (.dimensionsOf mime l) f (failed_of_exec (hc.dimensionsOf mime l) h)

theorem ofAnswers_isGranted (a : Answers) (r : Run σ) :
    (ofAnswers a none : Completer σ).IsGranted r := by
  intro access h
  cases h

theorem sampleAnswers_answersFully : (ofAnswers sampleAnswers none : Completer σ).AnswersFully := by
  intro mime l r d r' h
  have hd := (ofAnswers_answering (σ := σ) sampleAnswers none).dimensionsOf mime l r
  rw [h] at hd
  by_cases hl : l = "far"
  · simp [sampleAnswers, hl] at hd
  · have hsides : d = (3, 2) := by simpa [sampleAnswers, hl] using hd
    rw [hsides]
    decide

theorem complete_sample_knows :
    (ofAnswers sampleAnswers none : Completer Unit).FailsBySystem ∧
    (ofAnswers sampleAnswers none : Completer Unit).IsGranted ⟨(), []⟩ ∧
    ∃ b, (((ofAnswers sampleAnswers none).complete sampleItems).exec ⟨(), []⟩).1 = .ok b ∧
      List.Forall₂ (fun i j => ∀ m, i.Knows m → j.item.Knows m) sampleItems b.items := by
  have hfails : (ofAnswers sampleAnswers none : Completer Unit).FailsBySystem :=
    (ofAnswers_answering _ _).failsBySystem sampleAnswers_failsBySystem
  have hgranted := ofAnswers_isGranted sampleAnswers (⟨(), []⟩ : Run Unit)
  obtain ⟨b, hb, -, hknows⟩ := complete_forgets_iff hfails hgranted sampleItems
  exact ⟨hfails, hgranted, b, hb, hknows sampleAnswers_answersFully⟩

def unknowing : Answers where
  isLocal _ := .ok false
  sizeOf _ := .ok none
  metadataQuery _ := .ok none
  resourceSize _ := .ok 0
  dimensionsOf _ _ := .ok (0, 0)

theorem unknowing_failsBySystem : unknowing.FailsBySystem := by
  intro call f h
  cases call <;> cases h

def halfKnown : Item := ⟨"/m/a", "video/mp4", 1, 30, 0, 5, none, none⟩

/-- The width of a video of unknown height is forgotten when its sides are asked for in vain, as
they are where no reader of tags is installed. -/
theorem complete_forgets :
    halfKnown.Knows .width ∧
    (ofAnswers unknowing none : Completer Unit).FailsBySystem ∧
    (ofAnswers unknowing none : Completer Unit).IsGranted ⟨(), []⟩ ∧
    (∃ b, (((ofAnswers unknowing none).complete [halfKnown]).exec ⟨(), []⟩).1 = .ok b ∧
      ∃ j ∈ b.items, j.item.location = halfKnown.location ∧ ¬ j.item.Knows .width) ∧
    Settings.sample.answer ⟨Settings.sampleWorld, []⟩ [halfKnown] =
      .ok [{ halfKnown with width := 0 }] :=
  ⟨by decide, (ofAnswers_answering _ _).failsBySystem unknowing_failsBySystem,
    ofAnswers_isGranted _ _, ⟨_, rfl, _, List.mem_cons_self, rfl, by decide⟩, rfl⟩

end Completer

end MediaCatalog
