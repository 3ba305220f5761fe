import Mathlib.Data.List.Induction
import Mathlib.Data.List.Nodup
import MediaCatalog.Render.Map

namespace MediaCatalog

/-- The last element of the list that has its name. -/
def IsLastBy {α : Type} (name : α → String) (l : List α) (a : α) : Prop :=
  ∃ front back, l = front ++ a :: back ∧ ∀ b ∈ back, name b ≠ name a

section IsLastBy

variable {α : Type} {name : α → String} {l : List α} {a b : α}

theorem isLastBy_concat :
    IsLastBy name (l ++ [b]) a ↔ a = b ∨ IsLastBy name l a ∧ name b ≠ name a := by
  constructor
  · rintro ⟨front, back, hl, hback⟩
    rcases List.eq_nil_or_concat back with rfl | ⟨back, c, rfl⟩
    · left
      exact (List.append_singleton_inj.1 hl).2.symm
    · right
      rw [List.concat_eq_append, ← List.cons_append, ← List.append_assoc,
        List.append_singleton_inj] at hl
      obtain ⟨rfl, rfl⟩ := hl
      rw [List.concat_eq_append] at hback
      refine ⟨⟨front, back, rfl, fun c hc => hback c (List.mem_append_left _ hc)⟩, ?_⟩
      exact hback b (List.mem_append_right _ List.mem_cons_self)
  · rintro (rfl | ⟨⟨front, back, rfl, hback⟩, hb⟩)
    · exact ⟨l, [], rfl, fun _ h => absurd h List.not_mem_nil⟩
    · refine ⟨front, back ++ [b], by simp, fun c hc => ?_⟩
      rcases List.mem_append.1 hc with hc | hc
      · exact hback c hc
      · rw [List.mem_singleton.1 hc]
        exact hb

theorem IsLastBy.mem (h : IsLastBy name l a) : a ∈ l := by
  obtain ⟨front, back, rfl, -⟩ := h
  exact List.mem_append_right _ List.mem_cons_self

theorem IsLastBy.unique (ha : IsLastBy name l a) (hb : IsLastBy name l b)
    (hname : name a = name b) : a = b := by
  induction l using List.reverseRecOn with
  | nil => exact absurd ha.mem List.not_mem_nil
  | append_singleton l c ih =>
      rcases isLastBy_concat.1 ha with rfl | ⟨ha, hca⟩
      · rcases isLastBy_concat.1 hb with rfl | ⟨-, hab⟩
        · rfl
        · exact absurd hname hab
      · rcases isLastBy_concat.1 hb with rfl | ⟨hb, -⟩
        · exact absurd hname.symm hca
        · exact ih ha hb

end IsLastBy

namespace RenderMap

def locationOf (p : Item × Item) : String := p.1.location

def locations (m : RenderMap) : List String := m.pairs.map locationOf

def ofPairs (ps : List (Item × Item)) : RenderMap := ps.foldl (fun m p => m.put p.1 p.2) {}

theorem ofPairs_concat (ps : List (Item × Item)) (p : Item × Item) :
    ofPairs (ps ++ [p]) = (ofPairs ps).put p.1 p.2 := by
  rw [ofPairs, List.foldl_append]
  rfl

theorem map_locationOf_putPair (i x : Item) (ps : List (Item × Item)) :
    (putPair i x ps).map locationOf =
      if i.location ∈ ps.map locationOf then ps.map locationOf
      else ps.map locationOf ++ [i.location] := by
  induction ps with
  | nil => rfl
  | cons p ps ih =>
      by_cases hp : p.1.location = i.location
      · simp [putPair, locationOf, hp]
      · have hi : ¬ i.location = locationOf p := fun he => hp he.symm
        rw [putPair, if_neg hp, List.map_cons, ih, List.map_cons]
        by_cases hmem : i.location ∈ ps.map locationOf
        · rw [if_pos hmem, if_pos (List.mem_cons_of_mem _ hmem)]
        · rw [if_neg hmem, if_neg (List.not_mem_cons_of_ne_of_not_mem hi hmem), List.cons_append]

theorem mem_putPair {i x : Item} {ps : List (Item × Item)} (h : (ps.map locationOf).Nodup)
    {p : Item × Item} :
    p ∈ putPair i x ps ↔ p = (i, x) ∨ p ∈ ps ∧ p.1.location ≠ i.location := by
  induction ps with
  | nil => simp [putPair]
  | cons q ps ih =>
      obtain ⟨hq, hps⟩ := List.nodup_cons.1 h
      by_cases hi : q.1.location = i.location
      · have hrest : p ∈ ps → p.1.location ≠ i.location := by
          intro hp he
          exact hq (List.mem_map.2 ⟨p, hp, he.trans hi.symm⟩)
        rw [putPair, if_pos hi, List.mem_cons, List.mem_cons]
        constructor
        · rintro (hp | hp)
          · exact .inl hp
          · exact .inr ⟨.inr hp, hrest hp⟩
        · rintro (hp | ⟨rfl | hp, hne⟩)
          · exact .inl hp
          · exact absurd hi hne
          · exact .inr hp
      · rw [putPair, if_neg hi, List.mem_cons, ih hps, List.mem_cons]
        constructor
        · rintro (rfl | hp | ⟨hp, hne⟩)
          · exact .inr ⟨.inl rfl, hi⟩
          · exact .inl hp
          · exact .inr ⟨.inr hp, hne⟩
        · rintro (hp | ⟨rfl | hp, hne⟩)
          · exact .inr (.inl hp)
          · exact .inl rfl
          · exact .inr (.inr ⟨hp, hne⟩)

theorem locations_ofPairs (ps : List (Item × Item)) :
    (ofPairs ps).locations = (ps.map locationOf).eraseDups := by
  induction ps using List.reverseRecOn with
  | nil => rfl
  | append_singleton ps p ih =>
      rw [locations] at ih
      rw [ofPairs_concat, locations, put, map_locationOf_putPair, ih, List.map_append,
        List.eraseDups_append, List.removeAll]
      by_cases hp : p.1.location ∈ ps.map locationOf
      · have helem : (ps.map locationOf).elem (locationOf p) := List.elem_eq_true_of_mem hp
        rw [if_pos (List.mem_eraseDups.2 hp), List.map_singleton,
          List.filter_cons_of_neg (by rw [helem]; decide)]
        exact (List.append_nil _).symm
      · have helem : (ps.map locationOf).elem (locationOf p) = false := by
          rw [← Bool.not_eq_true]
          exact fun he => hp (List.mem_of_elem_eq_true he)
        rw [if_neg (mt List.mem_eraseDups.1 hp), List.map_singleton,
          List.filter_cons_of_pos (by rw [helem]; decide)]
        rfl

theorem nodup_locations_ofPairs (ps : List (Item × Item)) : (ofPairs ps).locations.Nodup := by
  induction ps using List.reverseRecOn with
  | nil => exact List.nodup_nil
  | append_singleton ps p ih =>
      rw [ofPairs_concat, locations, put, map_locationOf_putPair]
      split
      · exact ih
      · rename_i hp
        refine List.nodup_append.2 ⟨ih, List.nodup_singleton _, fun a ha b hb he => hp ?_⟩
        rw [← List.mem_singleton.1 hb, ← he]
        exact ha

theorem mem_ofPairs {ps : List (Item × Item)} {p : Item × Item} :
    p ∈ (ofPairs ps).pairs ↔ IsLastBy locationOf ps p := by
  induction ps using List.reverseRecOn with
  | nil =>
      constructor
      · exact fun h => absurd h List.not_mem_nil
      · rintro ⟨front, back, he, -⟩
        simp at he
  | append_singleton ps q ih =>
      rw [ofPairs_concat, put, mem_putPair (nodup_locations_ofPairs ps), ih, isLastBy_concat]
      exact or_congr_right (and_congr_right fun _ => ne_comm)

end RenderMap

end MediaCatalog
