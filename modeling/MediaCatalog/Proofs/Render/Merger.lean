import MediaCatalog.Proofs.Act
import MediaCatalog.Proofs.Render.Map
import MediaCatalog.Render.Merger

namespace MediaCatalog.Merger

variable {σ ρ : Type}

/-- The edit hands out this raster, which is encoded as these bytes and stored under this name. -/
def Yields (m : Merger σ ρ) (edit : Edit σ ρ) (turn : Run σ) (raster : ρ) (data : List UInt8)
    (location : String) : Prop :=
  ∃ r₁ r₂ r₃, edit.render.exec turn = (.ok raster, r₁) ∧
    (m.kit.encode raster m.quality).exec r₁ = (.ok data, r₂) ∧
    (m.blobs.persist data renderedMime).exec r₂ = (.ok location, r₃)

def StoresAt (m : Merger σ ρ) (turn : Run σ) (raster : ρ) (data : List UInt8) (location : String) :
    Prop :=
  ∃ r₂ r₃, (m.kit.encode raster m.quality).exec turn = (.ok data, r₂) ∧
    (m.blobs.persist data renderedMime).exec r₂ = (.ok location, r₃)

theorem yields_iff {m : Merger σ ρ} {edit : Edit σ ρ} {turn : Run σ} {raster : ρ}
    {data : List UInt8} {location : String} : m.Yields edit turn raster data location ↔
      ∃ r₁, edit.render.exec turn = (.ok raster, r₁) ∧ m.StoresAt r₁ raster data location := by
  constructor
  · rintro ⟨r₁, r₂, r₃, hrender, hencode, hpersist⟩
    exact ⟨r₁, hrender, r₂, r₃, hencode, hpersist⟩
  · rintro ⟨r₁, hrender, r₂, r₃, hencode, hpersist⟩
    exact ⟨r₁, r₂, r₃, hrender, hencode, hpersist⟩

theorem not_yields_of_error {m : Merger σ ρ} {edit : Edit σ ρ} {r r₁ : Run σ} {f : Failure}
    (h : edit.render.exec r = (.error f, r₁)) (raster : ρ) (data : List UInt8) (location : String) :
    ¬ m.Yields edit r raster data location := by
  rintro ⟨_, _, _, hrender, -⟩
  cases h.symm.trans hrender

theorem yields_of_rendered {m : Merger σ ρ} {edit : Edit σ ρ} {r r₁ : Run σ} {raster : ρ}
    (h : edit.render.exec r = (.ok raster, r₁)) {raster' : ρ} {data : List UInt8}
    {location : String} :
    m.Yields edit r raster' data location ↔
      raster' = raster ∧ m.StoresAt r₁ raster data location := by
  rw [yields_iff]
  constructor
  · rintro ⟨r₁', hrender, hstores⟩
    cases h.symm.trans hrender
    exact ⟨rfl, hstores⟩
  · rintro ⟨rfl, hstores⟩
    exact ⟨r₁, h, hstores⟩

def replacement (m : Merger σ ρ) (i : Item) (raster : ρ) (data : List UInt8) (location : String) :
    Item :=
  { location, mimeType := "image/jpeg", takenAt := i.takenAt, width := (m.kit.size raster).1,
    height := (m.kit.size raster).2, size := data.length, bucketId := i.bucketId,
    caption := i.caption }

def IsEditFor (overlays : List (Item × Edit σ ρ)) (location : String) (edit : Edit σ ρ) : Prop :=
  ∃ key : Item, key.location = location ∧ IsLastBy (fun o => o.1.location) overlays (key, edit)

inductive IsResult (m : Merger σ ρ) (overlays : List (Item × Edit σ ρ)) (turn : Run σ) (i : Item) :
    Item → Prop
  | unedited : (∀ o ∈ overlays, o.1.location ≠ i.location) → IsResult m overlays turn i i
  | replaced {edit : Edit σ ρ} {raster : ρ} {data : List UInt8} {location : String} :
      IsEditFor overlays i.location edit → m.Yields edit turn raster data location →
      IsResult m overlays turn i (m.replacement i raster data location)
  | failed {edit : Edit σ ρ} : IsEditFor overlays i.location edit →
      (∀ raster data location, ¬ m.Yields edit turn raster data location) →
      IsResult m overlays turn i i

/-- Edits, encoder and store fail in expected ways only, and a raster can always be closed. -/
structure FailsAsExpected (m : Merger σ ρ) (overlays : List (Item × Edit σ ρ)) : Prop where
  render : ∀ o ∈ overlays, ∀ r f, (o.2.render.exec r).1 = .error f → f.isExpected
  encode : ∀ raster r f, ((m.kit.encode raster m.quality).exec r).1 = .error f → f.isExpected
  persist : ∀ data r f, ((m.blobs.persist data renderedMime).exec r).1 = .error f → f.isExpected
  close : ∀ raster r, ((m.kit.close raster).exec r).1 = .ok ()

/-- The encoder refuses rasters without pixels and always writes something. -/
def EncodesPixels (m : Merger σ ρ) : Prop :=
  ∀ raster r data r', (m.kit.encode raster m.quality).exec r = (.ok data, r') →
    0 < (m.kit.size raster).1 ∧ 0 < (m.kit.size raster).2 ∧ data ≠ []

theorem editFor_eq_none {overlays : List (Item × Edit σ ρ)} {location : String} :
    editFor overlays location = none ↔ ∀ o ∈ overlays, o.1.location ≠ location := by
  simp [editFor]

theorem isEditFor_of_editFor {overlays : List (Item × Edit σ ρ)} {location : String}
    {edit : Edit σ ρ} (h : editFor overlays location = some edit) :
    IsEditFor overlays location edit := by
  obtain ⟨⟨key, edit'⟩, hfind, rfl⟩ := Option.map_eq_some_iff.1 h
  obtain ⟨hkey, behind, before, hreverse, hbehind⟩ := List.find?_eq_some_iff_append.1 hfind
  have hkey' : key.location = location := of_decide_eq_true hkey
  refine ⟨key, hkey', before.reverse, behind.reverse, ?_, fun o ho => ?_⟩
  · rw [← List.reverse_reverse overlays, hreverse]
    simp
  · change o.1.location ≠ key.location
    rw [hkey']
    simpa using hbehind o (List.mem_reverse.1 ho)

theorem IsEditFor.unique {overlays : List (Item × Edit σ ρ)} {location : String}
    {edit edit' : Edit σ ρ} (h : IsEditFor overlays location edit)
    (h' : IsEditFor overlays location edit') : edit = edit' := by
  obtain ⟨key, hkey, hlast⟩ := h
  obtain ⟨key', hkey', hlast'⟩ := h'
  exact congrArg Prod.snd (hlast.unique hlast' (hkey.trans hkey'.symm))

theorem mem_of_isEditFor {overlays : List (Item × Edit σ ρ)} {location : String}
    {edit : Edit σ ρ} (h : IsEditFor overlays location edit) :
    ∃ key : Item, key.location = location ∧ (key, edit) ∈ overlays := by
  obtain ⟨key, hkey, hlast⟩ := h
  exact ⟨key, hkey, hlast.mem⟩

theorem Yields.unique {m : Merger σ ρ} {edit : Edit σ ρ} {turn : Run σ} {raster raster' : ρ}
    {data data' : List UInt8} {location location' : String}
    (h : m.Yields edit turn raster data location)
    (h' : m.Yields edit turn raster' data' location') :
    raster = raster' ∧ data = data' ∧ location = location' := by
  obtain ⟨r₁, r₂, r₃, hrender, hencode, hpersist⟩ := h
  obtain ⟨s₁, s₂, s₃, hrender', hencode', hpersist'⟩ := h'
  obtain ⟨hraster, rfl⟩ := Prod.mk.inj (hrender.symm.trans hrender')
  obtain rfl := Except.ok.inj hraster
  obtain ⟨hdata, rfl⟩ := Prod.mk.inj (hencode.symm.trans hencode')
  obtain rfl := Except.ok.inj hdata
  obtain ⟨hlocation, -⟩ := Prod.mk.inj (hpersist.symm.trans hpersist')
  exact ⟨rfl, rfl, Except.ok.inj hlocation⟩

section One

variable {m : Merger σ ρ} {overlays : List (Item × Edit σ ρ)} {edit : Edit σ ρ} {i x : Item}
  {act : Act σ Item} {r r₁ r₂ : Run σ} {raster : ρ} {f : Failure}

theorem orBase_of_ok (h : act.exec r = (.ok x, r₁)) : (orBase i act).exec r = (.ok x, r₁) :=
  Act.exec_recover_ok h _ _

theorem orBase_of_error (h : act.exec r = (.error f, r₁)) (hf : f.isExpected) :
    ∃ r', (orBase i act).exec r = (.ok i, r') ∧ r'.state = r₁.state :=
  ⟨_, Act.exec_recover_error h hf _, rfl⟩

theorem orBase_of_unexpected (h : act.exec r = (.error f, r₁)) (hf : ¬ f.isExpected) :
    (orBase i act).exec r = (.error f, r₁) := by
  rw [orBase, Act.exec_recover, h]
  exact if_neg hf

theorem renderOne_of_error (h : edit.render.exec r = (.error f, r₁)) (i : Item) :
    (m.renderOne i edit).exec r = (orBase i (Act.fail f)).exec r₁ := by
  rw [renderOne, Act.exec_bind_ok (Act.exec_attempt edit.render r), h]

theorem renderOne_of_rendered (h : edit.render.exec r = (.ok raster, r₁)) (i : Item) :
    (m.renderOne i edit).exec r =
      (Act.ensuring (orBase i (m.store i raster)) (m.kit.close raster)).exec r₁ := by
  rw [renderOne, Act.exec_bind_ok (Act.exec_attempt edit.render r), h]

theorem exec_store (m : Merger σ ρ) (i : Item) (raster : ρ) (r : Run σ) :
    (∃ data location r', m.StoresAt r raster data location ∧
      (m.store i raster).exec r = (.ok (m.replacement i raster data location), r')) ∨
    ∃ f r', (m.store i raster).exec r = (.error f, r') ∧
      (∀ data location, ¬ m.StoresAt r raster data location) ∧
      ((∃ s, ((m.kit.encode raster m.quality).exec s).1 = .error f) ∨
        ∃ data s, ((m.blobs.persist data renderedMime).exec s).1 = .error f) := by
  rcases hencode : (m.kit.encode raster m.quality).exec r with ⟨f | data, r₁⟩
  · refine .inr ⟨f, r₁, Act.exec_bind_error hencode _, ?_, .inl ⟨r, congrArg Prod.fst hencode⟩⟩
    rintro data location ⟨_, _, hencode', -⟩
    cases hencode.symm.trans hencode'
  rcases hpersist : (m.blobs.persist data renderedMime).exec r₁ with ⟨f | location, r₂⟩
  · refine .inr ⟨f, r₂, (Act.exec_bind_ok hencode _).trans (Act.exec_bind_error hpersist _), ?_,
      .inr ⟨data, r₁, congrArg Prod.fst hpersist⟩⟩
    rintro data' location ⟨_, _, hencode', hpersist'⟩
    cases hencode.symm.trans hencode'
    cases hpersist.symm.trans hpersist'
  · exact .inl ⟨data, location, r₂, ⟨r₁, r₂, hencode, hpersist⟩,
      (Act.exec_bind_ok hencode _).trans (Act.exec_bind_ok hpersist _)⟩

theorem renderOne_exec (h : m.FailsAsExpected overlays)
    (hedit : IsEditFor overlays i.location edit) (r : Run σ) :
    ∃ x r', (m.renderOne i edit).exec r = (.ok x, r') ∧ m.IsResult overlays r i x := by
  obtain ⟨key, -, hmem⟩ := mem_of_isEditFor hedit
  rcases hrender : edit.render.exec r with ⟨f | raster, r₁⟩
  · have hf : f.isExpected := h.render _ hmem r f (congrArg Prod.fst hrender)
    obtain ⟨r', hexec, -⟩ := orBase_of_error (i := i) (Act.exec_fail f r₁) hf
    exact ⟨i, r', (renderOne_of_error hrender i).trans hexec,
      .failed hedit (not_yields_of_error hrender)⟩
  · have hclosed {x : Item} {r₂ : Run σ}
        (hbase : (orBase i (m.store i raster)).exec r₁ = (.ok x, r₂)) :
        ∃ r', (m.renderOne i edit).exec r = (.ok x, r') := by
      have hclose : (m.kit.close raster).exec r₂ = (.ok (), ((m.kit.close raster).exec r₂).2) :=
        Prod.ext (h.close raster r₂) rfl
      exact ⟨_, (renderOne_of_rendered hrender i).trans (Act.exec_ensuring hbase hclose)⟩
    obtain ⟨data, location, r₂, hstores, hstore⟩ | ⟨f, r₂, hstore, hnot, hf⟩ :=
      m.exec_store i raster r₁
    · obtain ⟨r', hexec⟩ := hclosed (orBase_of_ok hstore)
      exact ⟨_, r', hexec, .replaced hedit ((yields_of_rendered hrender).2 ⟨rfl, hstores⟩)⟩
    · have hf : f.isExpected := by
        obtain ⟨s, hs⟩ | ⟨data, s, hs⟩ := hf
        · exact h.encode raster s f hs
        · exact h.persist data s f hs
      obtain ⟨r₃, hbase, -⟩ := orBase_of_error hstore hf
      obtain ⟨r', hexec⟩ := hclosed hbase
      refine ⟨i, r', hexec, .failed hedit fun raster' data location hy => ?_⟩
      exact hnot data location ((yields_of_rendered hrender).1 hy).2

theorem renderItem_exec (h : m.FailsAsExpected overlays) (i : Item) (r : Run σ) :
    ∃ x r', (m.renderItem overlays i).exec r = (.ok x, r') ∧ m.IsResult overlays r i x := by
  rw [renderItem]
  cases hedit : editFor overlays i.location with
  | none => exact ⟨i, r, rfl, .unedited (editFor_eq_none.1 hedit)⟩
  | some edit => exact renderOne_exec h (isEditFor_of_editFor hedit) r

end One

section Runs

variable {m : Merger σ ρ} {overlays : List (Item × Edit σ ρ)} {r : Run σ}

def next (m : Merger σ ρ) (overlays : List (Item × Edit σ ρ)) (turn : Run σ) (i : Item) : Run σ :=
  ((m.renderItem overlays i).exec turn).2

def after (m : Merger σ ρ) (overlays : List (Item × Edit σ ρ)) (r : Run σ) (items : List Item) :
    Run σ :=
  items.foldl (m.next overlays) r

theorem after_cons (i : Item) (items : List Item) :
    m.after overlays r (i :: items) = m.after overlays (m.next overlays r i) items := rfl

/-- The items with what they become, each at its turn. -/
inductive Results (m : Merger σ ρ) (overlays : List (Item × Edit σ ρ)) :
    Run σ → List Item → List (Item × Item) → Prop
  | nil {r : Run σ} : Results m overlays r [] []
  | cons {r : Run σ} {i x : Item} {items : List Item} {ps : List (Item × Item)} :
      m.IsResult overlays r i x → Results m overlays (m.next overlays r i) items ps →
      Results m overlays r (i :: items) ((i, x) :: ps)

theorem renderAll_exec (h : m.FailsAsExpected overlays) (items : List Item) (r : Run σ)
    (map : RenderMap) :
    ∃ ps, m.Results overlays r items ps ∧
      (items.foldlM (fun (map : RenderMap) i => do
          return map.put i (← m.renderItem overlays i)) map).exec r =
        (.ok (ps.foldl (fun map p => map.put p.1 p.2) map), m.after overlays r items) := by
  induction items generalizing r map with
  | nil => exact ⟨[], .nil, rfl⟩
  | cons i items ih =>
      obtain ⟨x, r', hexec, hx⟩ := renderItem_exec h i r
      have hnext : m.next overlays r i = r' := by rw [next, hexec]
      obtain ⟨ps, hps, hrest⟩ := ih r' (map.put i x)
      refine ⟨(i, x) :: ps, .cons hx (hnext ▸ hps), ?_⟩
      have hstep : (do return map.put i (← m.renderItem overlays i) : Act σ RenderMap).exec r =
          (.ok (map.put i x), r') := by
        rw [Act.exec_bind_ok hexec, Act.exec_pure]
      rw [List.foldlM_cons, Act.exec_bind_ok hstep, hrest, after_cons, hnext, List.foldl_cons]

theorem render_eq_ofPairs (h : m.FailsAsExpected overlays) (items : List Item) (r : Run σ) :
    ∃ ps, m.Results overlays r items ps ∧
      (m.render items overlays).exec r = (.ok (.ofPairs ps), m.after overlays r items) :=
  renderAll_exec h items r {}

theorem Results.map_fst {items : List Item} {ps : List (Item × Item)}
    (h : m.Results overlays r items ps) : ps.map Prod.fst = items := by
  induction h with
  | nil => rfl
  | cons _ _ ih => rw [List.map_cons, ih]

theorem Results.isResult {items : List Item} {front back : List (Item × Item)} {i x : Item}
    (h : m.Results overlays r items (front ++ (i, x) :: back)) :
    m.IsResult overlays (m.after overlays r (front.map Prod.fst)) i x := by
  induction front generalizing r items with
  | nil =>
      cases h with
      | cons hx _ => exact hx
  | cons p front ih =>
      cases h with
      | cons _ hrest => exact ih hrest

theorem Results.isLastBy {items : List Item} {ps : List (Item × Item)} {i x : Item}
    (h : m.Results overlays r items ps) (hlast : IsLastBy RenderMap.locationOf ps (i, x)) :
    ∃ front back, items = front ++ i :: back ∧ (∀ j ∈ back, j.location ≠ i.location) ∧
      m.IsResult overlays (m.after overlays r front) i x := by
  obtain ⟨front, back, rfl, hback⟩ := hlast
  refine ⟨front.map Prod.fst, back.map Prod.fst, ?_, fun j hj => ?_, h.isResult⟩
  · rw [← h.map_fst, List.map_append, List.map_cons]
  · obtain ⟨p, hp, rfl⟩ := List.mem_map.1 hj
    exact hback p hp

theorem isPopulated_replacement (h : m.EncodesPixels) {edit : Edit σ ρ} {turn : Run σ} {raster : ρ}
    {data : List UInt8} {location : String} (hy : m.Yields edit turn raster data location)
    (i : Item) : (m.replacement i raster data location).isPopulated := by
  obtain ⟨r₁, r₂, -, -, hencode, -⟩ := hy
  obtain ⟨hwidth, hheight, hdata⟩ := h raster r₁ data r₂ hencode
  have hsize : 0 < data.length := List.length_pos_iff.2 hdata
  rw [Item.isPopulated, Bool.and_eq_true, Bool.and_eq_true]
  exact ⟨⟨decide_eq_true (Int.natCast_pos.2 hwidth), decide_eq_true (Int.natCast_pos.2 hheight)⟩,
    decide_eq_true (Int.natCast_pos.2 hsize)⟩

theorem IsEditFor.not_unedited {location : String} {edit : Edit σ ρ}
    (h : IsEditFor overlays location edit) : ¬ ∀ o ∈ overlays, o.1.location ≠ location := by
  obtain ⟨key, hkey, hmem⟩ := mem_of_isEditFor h
  intro hnone
  exact hnone _ hmem hkey

/-- Nothing of what happened before an item's turn reaches its result but the name of its blob. -/
theorem IsResult.eq_of_yields {overlays' : List (Item × Edit σ ρ)} {turn turn' : Run σ}
    {i x x' : Item}
    (hedit : ∀ edit, IsEditFor overlays i.location edit ↔ IsEditFor overlays' i.location edit)
    (hyields : ∀ edit raster data,
      (∃ l, m.Yields edit turn raster data l) ↔ ∃ l, m.Yields edit turn' raster data l)
    (h : m.IsResult overlays turn i x) (h' : m.IsResult overlays' turn' i x') :
    { x with location := x'.location } = x' := by
  cases h with
  | unedited hnone =>
      cases h' with
      | unedited _ => rfl
      | failed _ _ => rfl
      | replaced hedit' _ => exact absurd hnone ((hedit _).2 hedit').not_unedited
  | failed hedit₁ hnot =>
      cases h' with
      | unedited _ => rfl
      | failed _ _ => rfl
      | replaced hedit' hy =>
          obtain rfl := hedit₁.unique ((hedit _).2 hedit')
          obtain ⟨l, hl⟩ := (hyields _ _ _).2 ⟨_, hy⟩
          exact absurd hl (hnot _ _ _)
  | replaced hedit₁ hy =>
      obtain ⟨l, hl⟩ := (hyields _ _ _).1 ⟨_, hy⟩
      cases h' with
      | unedited hnone => exact absurd hnone ((hedit _).1 hedit₁).not_unedited
      | failed hedit' hnot =>
          obtain rfl := hedit₁.unique ((hedit _).2 hedit')
          exact absurd hl (hnot _ _ _)
      | replaced hedit' hy' =>
          obtain rfl := hedit₁.unique ((hedit _).2 hedit')
          obtain ⟨rfl, rfl, -⟩ := hl.unique hy'
          rfl

end Runs

/-- The map has one entry for every location, where the location came first. It holds the last item
with the location and what that item becomes at its turn: itself without an edit or when a step
fails, else the stored rendering of the edit whose key comes last. The rendering is populated when
the encoder does its part, and what other items went through shows in nothing but the name. -/
theorem render_eq_results {m : Merger σ ρ} {overlays : List (Item × Edit σ ρ)}
    (h : m.FailsAsExpected overlays) (items : List Item) (r : Run σ) :
    (∃ map r', (m.render items overlays).exec r = (.ok map, r') ∧
      map.locations = (items.map (·.location)).eraseDups ∧
      ∀ i x, (i, x) ∈ map.pairs → ∃ front back, items = front ++ i :: back ∧
        (∀ j ∈ back, j.location ≠ i.location) ∧
        m.IsResult overlays (m.after overlays r front) i x) ∧
    (m.EncodesPixels → ∀ edit turn raster data location i,
      m.Yields edit turn raster data location →
        (m.replacement i raster data location).isPopulated) ∧
    ∀ overlays' turn turn' i x x',
      (∀ edit, IsEditFor overlays i.location edit ↔ IsEditFor overlays' i.location edit) →
      (∀ edit raster data,
        (∃ l, m.Yields edit turn raster data l) ↔ ∃ l, m.Yields edit turn' raster data l) →
      m.IsResult overlays turn i x → m.IsResult overlays' turn' i x' →
        { x with location := x'.location } = x' := by
  refine ⟨?_, fun hpixels _ _ _ _ _ i hy => isPopulated_replacement hpixels hy i, ?_⟩
  · obtain ⟨ps, hps, hexec⟩ := render_eq_ofPairs h items r
    refine ⟨_, _, hexec, ?_, fun i x hmem => hps.isLastBy (RenderMap.mem_ofPairs.1 hmem)⟩
    rw [RenderMap.locations_ofPairs, ← hps.map_fst, List.map_map]
    rfl
  · intro overlays' turn turn' i x x' hedit hyields hx hx'
    exact hx.eq_of_yields hedit hyields hx'

def sampleMerger : Merger Nat (Nat × Nat) where
  blobs := ⟨fun _ _ => do
    let n ← Act.getState
    Act.setState (n + 1)
    return if n = 0 then "blob:0" else "blob:1"⟩
  kit :=
    { size := id
      encode := fun s _ => if 0 < s.1 ∧ 0 < s.2 then pure [7] else Act.fail (.ofValue "empty")
      close := fun _ => pure () }
  quality := 80

def sampleItem (location : String) (takenAt : Int) : Item :=
  ⟨location, "image/png", takenAt, 0, 0, 0, none, none⟩

def sampleOverlays : List (Item × Edit Nat (Nat × Nat)) :=
  [(sampleItem "a" 8, ⟨pure (2, 2)⟩), (sampleItem "b" 2, ⟨pure (0, 5)⟩),
    (sampleItem "a" 9, ⟨pure (4, 3)⟩)]

theorem sampleMerger_failsAsExpected : sampleMerger.FailsAsExpected sampleOverlays := by
  constructor
  · intro o ho r f hf
    simp only [sampleOverlays, List.mem_cons, List.not_mem_nil, or_false] at ho
    rcases ho with rfl | rfl | rfl <;> simp at hf
  · intro raster r f hf
    by_cases hs : 0 < raster.1 ∧ 0 < raster.2
    · simp [sampleMerger, hs] at hf
    · simp only [sampleMerger, if_neg hs, Act.exec_fail, Except.error.injEq] at hf
      subst hf
      rfl
  · intro data r f hf
    cases hf
  · intro raster r
    rfl

theorem render_sample :
    ∃ map r', (sampleMerger.render [sampleItem "a" 1, sampleItem "b" 2, sampleItem "a" 3]
        sampleOverlays).exec ⟨0, []⟩ = (.ok map, r') ∧
      map.locations = ["a", "b"] ∧
      map.pairs = [(sampleItem "a" 3, ⟨"blob:1", "image/jpeg", 3, 4, 3, 1, none, none⟩),
        (sampleItem "b" 2, sampleItem "b" 2)] := by
  obtain ⟨⟨map, r', hexec, hlocations, -⟩, -⟩ := render_eq_results sampleMerger_failsAsExpected
    [sampleItem "a" 1, sampleItem "b" 2, sampleItem "a" 3] ⟨0, []⟩
  refine ⟨map, r', hexec, hlocations.trans (by decide), ?_⟩
  obtain rfl := Except.ok.inj (congrArg Prod.fst hexec).symm
  rfl

end MediaCatalog.Merger
