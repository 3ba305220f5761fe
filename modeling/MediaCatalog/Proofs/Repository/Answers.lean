import MediaCatalog.Proofs.Render.Map
import MediaCatalog.Proofs.Repository.Deeds

namespace MediaCatalog

variable {σ ρ : Type}

namespace RenderMap

/-- The map has each location once, where it first stands, and under it the last of the items that
have it, mapped to itself. -/
structure IsIdentityOn (m : RenderMap) (items : List Item) : Prop where
  locations : m.locations = (items.map Item.location).eraseDups
  pairs : ∀ p, p ∈ m.pairs ↔ p.2 = p.1 ∧ IsLastBy Item.location items p.1

theorem isLastBy_diagonal {items : List Item} {p : Item × Item} :
    IsLastBy locationOf (items.map fun i => (i, i)) p ↔
      p.2 = p.1 ∧ IsLastBy Item.location items p.1 := by
  constructor
  · rintro ⟨front, back, hitems, hback⟩
    obtain ⟨front, rest, rfl, -, hrest⟩ := List.map_eq_append_iff.1 hitems
    obtain ⟨i, back, rfl, rfl, rfl⟩ := List.map_eq_cons_iff.1 hrest
    exact ⟨rfl, front, back, rfl, fun j hj => hback (j, j) (List.mem_map_of_mem hj)⟩
  · obtain ⟨i, x⟩ := p
    rintro ⟨hp : x = i, front, back, rfl, hback⟩
    subst hp
    refine ⟨front.map fun i => (i, i), back.map fun i => (i, i), by simp, fun q hq => ?_⟩
    obtain ⟨j, hj, rfl⟩ := List.mem_map.1 hq
    exact hback j hj

theorem isIdentityOn_identity (items : List Item) : (identity items).IsIdentityOn items := by
  have hpairs : identity items = ofPairs (items.map fun i => (i, i)) := by
    rw [identity, ofPairs, List.foldl_map]
  rw [hpairs]
  refine ⟨?_, fun p => mem_ofPairs.trans isLastBy_diagonal⟩
  rw [locations_ofPairs, List.map_map]
  rfl

end RenderMap

namespace Request

variable {c : Components σ ρ} {q : Request σ ρ} {callback : Option (Answer → Act σ Unit)}
  {d : Deed Answer} {r r' : Run σ}

/-- What a request is answered when its component comes to this: the component's value, or when it
fails no folders, no items, no item, the very items that came in, or each of them for itself. -/
inductive Concludes : Request σ ρ → Except Failure Answer → Answer → Prop
  | value {q : Request σ ρ} (a : Answer) : Concludes q (.ok a) a
  | folders (f : Failure) : Concludes .folders (.error f) (.folders [])
  | items (bucketId : String) (f : Failure) : Concludes (.items bucketId) (.error f) (.items [])
  | recent (f : Failure) : Concludes .recent (.error f) (.recent none)
  | populated (items : List Item) (f : Failure) :
      Concludes (.populated items) (.error f) (.populated ⟨items.map fun i => ⟨i, false⟩, false⟩)
  | rendered {items : List Item} {m : RenderMap} (edits : List (Item × Edit σ ρ)) (f : Failure)
      (h : m.IsIdentityOn items) : Concludes (.rendered items edits) (.error f) (.rendered m)

/-- The deeds for a request in their order. Nobody is told when no callback was given. -/
def exchange (callback : Option (Answer → Act σ Unit)) (out : Except Failure Answer) (a : Answer)
    (heard : Except Failure Unit) : List (Deed Answer) :=
  match callback with
  | none => [.work out, .complete a]
  | some _ => [.work out, .tell a heard, .complete a]

/-- What the deeds for a request do to a run: its own component is asked, its own callback told. -/
inductive Does (c : Components σ ρ) :
    Request σ ρ → Option (Answer → Act σ Unit) → Deed Answer → Run σ → Run σ → Prop
  | folders {callback : Option (Answer → Act σ Unit)} {out : Except Failure (List Folder)}
      {r r' : Run σ} (h : c.folders.exec r = (out, r')) :
      Does c .folders callback (.work (out.map .folders)) r (Job.noted "get_folders"
        "%s failed; completing with fallback result" out r')
  | items {callback : Option (Answer → Act σ Unit)} {bucketId : String}
      {out : Except Failure (List Item)} {r r' : Run σ}
      (h : (c.items bucketId).exec r = (out, r')) :
      Does c (.items bucketId) callback (.work (out.map .items)) r (Job.noted "get_media_in_bucket"
        "%s failed; completing with fallback result" out r')
  | recent {callback : Option (Answer → Act σ Unit)} {out : Except Failure (Option Item)}
      {r r' : Run σ} (h : c.recent.exec r = (out, r')) :
      Does c .recent callback (.work (out.map .recent)) r (Job.noted "get_most_recent_item"
        "%s failed; completing with fallback result" out r')
  | populated {callback : Option (Answer → Act σ Unit)} {items : List Item}
      {out : Except Failure Batch} {r r' : Run σ} (h : (c.complete items).exec r = (out, r')) :
      Does c (.populated items) callback (.work (out.map .populated)) r
        (Job.noted "get_populated_media" "%s failed; completing with fallback result" out r')
  | rendered {callback : Option (Answer → Act σ Unit)} {items : List Item}
      {edits : List (Item × Edit σ ρ)} {out : Except Failure RenderMap} {r r' : Run σ}
      (h : (c.render items edits).exec r = (out, r')) :
      Does c (.rendered items edits) callback (.work (out.map .rendered)) r
        (Job.noted "render_media" "%s failed; completing with fallback result" out r')
  | tell {q : Request σ ρ} {callback : Answer → Act σ Unit} {a : Answer}
      {heard : Except Failure Unit} {r r' : Run σ} (h : (callback a).exec r = (heard, r')) :
      Does c q (some callback) (.tell a heard) r (Job.noted q.name "%s callback raised" heard r')
  | complete {q : Request σ ρ} {callback : Option (Answer → Act σ Unit)} {a : Answer} {r : Run σ} :
      Does c q callback (.complete a) r r

theorem concludes_job (c : Components σ ρ) (q : Request σ ρ)
    (callback : Option (Answer → Act σ Unit)) (out : Except Failure Answer) :
    q.Concludes out ((q.job c callback).resultOf out) := by
  cases out with
  | ok a => exact .value a
  | error f =>
      cases q with
      | folders => exact .folders f
      | items bucketId => exact .items bucketId f
      | recent => exact .recent f
      | populated items => exact .populated items f
      | rendered items edits => exact .rendered edits f (RenderMap.isIdentityOn_identity items)

theorem life_job (c : Components σ ρ) (q : Request σ ρ)
    (callback : Option (Answer → Act σ Unit)) (out : Except Failure Answer)
    (heard : Except Failure Unit) : (q.job c callback).life out heard =
      exchange callback out ((q.job c callback).resultOf out) heard := by
  cases callback <;> rfl

theorem exec_answer {α : Type} {act : Act σ α} {answer : α → Answer} {out : Except Failure Answer}
    (h : (do return answer (← act) : Act σ Answer).exec r = (out, r')) :
    ∃ said, act.exec r = (said, r') ∧ out = said.map answer ∧
      ∀ name template, Job.noted name template out r' = Job.noted name template said r' := by
  rw [Act.exec_bind] at h
  cases hact : act.exec r with
  | mk said r₁ =>
      rw [hact] at h
      cases said <;> cases h <;> exact ⟨_, rfl, rfl, fun _ _ => rfl⟩

theorem does_job (h : (q.job c callback).Does d r r') : q.Does c callback d r r' := by
  cases h with
  | work hwork =>
      cases q <;> obtain ⟨said, hsaid, rfl, hnoted⟩ := exec_answer hwork <;> rw [hnoted]
      case folders => exact .folders hsaid
      case items => exact .items hsaid
      case recent => exact .recent hsaid
      case populated => exact .populated hsaid
      case rendered => exact .rendered hsaid
  | tell hcallback htell =>
      obtain rfl : callback = some _ := hcallback
      exact .tell htell
  | complete => exact .complete

end Request

end MediaCatalog
