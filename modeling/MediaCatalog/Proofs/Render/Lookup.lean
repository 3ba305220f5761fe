import MediaCatalog.Proofs.Act
import MediaCatalog.Proofs.Render.Map

namespace MediaCatalog.RenderMap

variable {ps : List (Item × Item)} {p : Item × Item} {location : String}

/-- The last pair that was put for the location. -/
def latest (ps : List (Item × Item)) (location : String) : Option (Item × Item) :=
  ps.reverse.find? (fun p => locationOf p = location)

theorem latest_concat (ps : List (Item × Item)) (p : Item × Item) (location : String) :
    latest (ps ++ [p]) location =
      if locationOf p = location then some p else latest ps location := by
  rw [latest, List.reverse_concat, List.find?_cons]
  split
  · rename_i hp
    exact (if_pos (of_decide_eq_true hp)).symm
  · rename_i hp
    exact (if_neg (of_decide_eq_false hp)).symm

theorem latest_eq_none : latest ps location = none ↔ ∀ p ∈ ps, locationOf p ≠ location := by
  simp [latest]

theorem latest_eq_some :
    latest ps location = some p ↔ IsLastBy locationOf ps p ∧ locationOf p = location := by
  induction ps using List.reverseRecOn with
  | nil =>
      constructor
      · intro h
        cases h
      · rintro ⟨hlast, -⟩
        exact absurd hlast.mem List.not_mem_nil
  | append_singleton ps q ih =>
      rw [latest_concat, isLastBy_concat]
      by_cases hq : locationOf q = location
      · rw [if_pos hq, Option.some_inj]
        constructor
        · rintro rfl
          exact ⟨.inl rfl, hq⟩
        · rintro ⟨rfl | ⟨-, hne⟩, hp⟩
          · rfl
          · exact absurd (hq.trans hp.symm) hne
      · rw [if_neg hq, ih]
        constructor
        · rintro ⟨hlast, rfl⟩
          exact ⟨.inr ⟨hlast, hq⟩, rfl⟩
        · rintro ⟨rfl | ⟨hlast, -⟩, hp⟩
          · exact absurd hp hq
          · exact ⟨hlast, hp⟩

theorem latest_of_mem (h : p ∈ (ofPairs ps).pairs) : latest ps (locationOf p) = some p :=
  latest_eq_some.2 ⟨mem_ofPairs.1 h, rfl⟩

theorem pairs_ofPairs (ps : List (Item × Item)) :
    (ofPairs ps).pairs = (ps.map locationOf).eraseDups.filterMap (latest ps) := by
  have hself : (ofPairs ps).pairs.filterMap (fun p => latest ps (locationOf p)) =
      (ofPairs ps).pairs.filterMap some := List.filterMap_congr fun p hp => latest_of_mem hp
  rw [← locations_ofPairs, locations, List.filterMap_map]
  exact (hself.trans List.filterMap_some).symm

theorem find?_ofPairs (ps : List (Item × Item)) (location : String) :
    (ofPairs ps).pairs.find? (fun p => p.1.location = location) = latest ps location := by
  cases hlatest : latest ps location with
  | none =>
      refine List.find?_eq_none.2 fun p hp he => ?_
      have hmem := (mem_ofPairs.1 hp).mem
      exact latest_eq_none.1 hlatest p hmem (of_decide_eq_true he)
  | some p =>
      obtain ⟨hlast, hp⟩ := latest_eq_some.1 hlatest
      have hsome : ((ofPairs ps).pairs.find? (fun p => p.1.location = location)).isSome :=
        List.find?_isSome.2 ⟨p, mem_ofPairs.2 hlast, decide_eq_true hp⟩
      obtain ⟨q, hq⟩ := Option.isSome_iff_exists.1 hsome
      have hqlast := mem_ofPairs.1 (List.mem_of_find?_eq_some hq)
      have hqlocation : locationOf q = location := by simpa [locationOf] using List.find?_some hq
      rw [hq, hqlast.unique hlast (hqlocation.trans hp.symm)]

/-- What a look-up by the location comes to. -/
def answer (ps : List (Item × Item)) (location : String) : Except Failure Item :=
  match latest ps location with
  | some p => .ok p.2
  | none => .error ⟨.key, Text.quoted location, []⟩

theorem find_ofPairs (ps : List (Item × Item)) (x : Item) :
    (ofPairs ps).find (some x) = answer ps x.location := by
  rw [find, get?, find?_ofPairs, answer]
  cases latest ps x.location <;> rfl

theorem findOr_ofPairs {α : Type} (ps : List (Item × Item)) (x : Item) (fallback : α) :
    (ofPairs ps).findOr (some x) fallback =
      .ok (match latest ps x.location with
        | some p => .inl p.2
        | none => .inr fallback) := by
  rw [findOr, find_ofPairs, answer]
  cases latest ps x.location <;> rfl

theorem containsKey_ofPairs (ps : List (Item × Item)) (x : Item) :
    (ofPairs ps).containsKey (some x) = (latest ps x.location).isSome := by
  rw [← find?_ofPairs, List.isSome_find?]
  rfl

theorem items_ofPairs (ps : List (Item × Item)) :
    (ofPairs ps).items = .ok (ofPairs ps).pairs := by
  rw [items, keys, List.mapM_map]
  have hfound (p : Item × Item) (hp : p ∈ (ofPairs ps).pairs) :
      (do return (p.1, ← (ofPairs ps).find (some p.1)) : Except Failure (Item × Item)) = .ok p := by
    have hlatest : latest ps p.1.location = some p := latest_of_mem hp
    rw [find_ofPairs, answer, hlatest]
    rfl
  exact (mapM_ok (g := id) hfound).trans (congrArg Except.ok (List.map_id _))

/-- After any puts the map has one entry for each location, in the order in which the locations
came first: the latest pair that was put for it. Every view shows these entries, and what is found
for an item depends on its location only. -/
theorem views_ofPairs (ps : List (Item × Item)) :
    (ofPairs ps).pairs = (ps.map locationOf).eraseDups.filterMap (latest ps) ∧
    (ofPairs ps).locations = (ps.map locationOf).eraseDups ∧
    (∀ p, p ∈ (ofPairs ps).pairs ↔ IsLastBy locationOf ps p) ∧
    (ofPairs ps).size = (ps.map locationOf).eraseDups.length ∧
    (ofPairs ps).keys = (ofPairs ps).pairs.map Prod.fst ∧
    (ofPairs ps).items = .ok (ofPairs ps).pairs ∧
    (ofPairs ps).items.map (List.map Prod.snd) = .ok (ofPairs ps).values ∧
    (∀ x, (ofPairs ps).containsKey (some x) = (latest ps x.location).isSome ∧
      (ofPairs ps).find (some x) = answer ps x.location ∧
      ((∃ f, (ofPairs ps).find (some x) = .error f ∧ f.cause = .key) ↔
        ∀ p ∈ ps, locationOf p ≠ x.location) ∧
      ∀ (α : Type) (fallback : α), (ofPairs ps).findOr (some x) fallback =
        .ok (match latest ps x.location with
          | some p => .inl p.2
          | none => .inr fallback)) ∧
    (ofPairs ps).containsKey none = false := by
  refine ⟨pairs_ofPairs ps, locations_ofPairs ps, fun p => mem_ofPairs, ?_, rfl, items_ofPairs ps,
    ?_, fun x => ⟨containsKey_ofPairs ps x, find_ofPairs ps x, ?_,
      fun α fallback => findOr_ofPairs ps x fallback⟩, rfl⟩
  · rw [← locations_ofPairs, locations, List.length_map]
    rfl
  · rw [items_ofPairs]
    rfl
  · rw [find_ofPairs, answer, ← latest_eq_none]
    cases latest ps x.location <;> simp

end MediaCatalog.RenderMap
