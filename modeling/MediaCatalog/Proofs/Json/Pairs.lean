import MediaCatalog.Json.Pairs

namespace MediaCatalog

theorem field?_setField {α : Type} (name other : String) (value : α)
    (fields : List (String × α)) :
    field? other (setField name value fields) =
      if other = name then some value else field? other fields := by
  induction fields with
  | nil =>
      by_cases h : name = other
      · simp [setField, field?, h]
      · simp [setField, field?, h, Ne.symm h]
  | cons p rest ih =>
      obtain ⟨k, v⟩ := p
      rw [setField]
      by_cases hk : k = name
      · subst hk
        by_cases h : k = other
        · simp [field?, h]
        · simp [field?, h, Ne.symm h]
      · rw [if_neg hk]
        by_cases h : k = other
        · subst h
          simp [field?, hk]
        · rw [field?, List.find?_cons_of_neg (by simpa using h), ← field?, ih, field?, field?,
            List.find?_cons_of_neg (by simpa using h)]

/-- There is a value when the condition holds, and otherwise a failure that is not the system's. -/
def Judges {α : Type} (P : Prop) (out : Except Failure α) : Prop :=
  (P ∧ ∃ a, out = .ok a) ∨ (¬ P ∧ ∃ f, out = .error f ∧ f.isSystem = false)

namespace Judges

variable {α β : Type} {P Q : Prop} {out : Except Failure α}

theorem ok (h : P) (a : α) : Judges P (.ok a) := .inl ⟨h, a, rfl⟩

theorem error (h : ¬ P) {f : Failure} (hf : f.isSystem = false) :
    Judges P (.error f : Except Failure α) := .inr ⟨h, f, rfl, hf⟩

theorem bind {next : α → Except Failure β} (h : Judges P out) (hnext : ∀ a, Judges Q (next a)) :
    Judges (P ∧ Q) (out >>= next) := by
  obtain ⟨hP, a, rfl⟩ | ⟨hP, f, rfl, hf⟩ := h
  · obtain ⟨hQ, b, hb⟩ | ⟨hQ, f, hf, hsystem⟩ := hnext a
    · exact .inl ⟨⟨hP, hQ⟩, b, hb⟩
    · exact .inr ⟨fun h => hQ h.2, f, hf, hsystem⟩
  · exact .inr ⟨fun h => hP h.1, f, rfl, hf⟩

theorem congr (h : Judges P out) (hPQ : P ↔ Q) : Judges Q out := by rwa [Judges, ← hPQ]

theorem not_iff (h : Judges P out) : ¬ P ↔ ∃ f, out = .error f ∧ f.isSystem = false := by
  obtain ⟨hP, a, rfl⟩ | ⟨hP, f, rfl, hf⟩ := h
  · exact ⟨fun hnot => absurd hP hnot, by simp⟩
  · exact ⟨fun _ => ⟨f, rfl, hf⟩, fun _ => hP⟩

end Judges

namespace Json

/-- A key with its value: a list, a text or an object of two. -/
inductive IsPair : Json → Prop
  | list {k : Json} (x : Json) (h : isKey k) : IsPair (.arr [k, x])
  | text {s : String} {k x : Char} (h : s.toList = [k, x]) : IsPair (.str s)
  | object (f g : String × Json) : IsPair (.obj [f, g])

/-- An object, or a list of pairs. A text is a list of its characters, none of which is a pair. -/
inductive HasPairs : Json → Prop
  | object (fields : List (String × Json)) : HasPairs (.obj fields)
  | list {xs : List Json} (h : ∀ x ∈ xs, IsPair x) : HasPairs (.arr xs)
  | empty : HasPairs (.str "")

theorem judges_addPair (pairs : List (Json × Json)) (v : Json) :
    Judges (IsPair v) (addPair pairs v) := by
  rw [addPair.eq_def]
  split
  · split
    · exact .ok (.list _ ‹_›) _
    · exact .error (by rintro ⟨⟩; contradiction) rfl
  · split
    · exact .ok (.text ‹_›) _
    · exact .error (by rintro ⟨⟩; simp_all) rfl
  · exact .ok (.object _ _) _
  · exact .error (by rintro ⟨⟩; simp_all) rfl
  · rename_i hfields
    exact .error (by rintro ⟨⟩; exact hfields _ _ _ _ rfl) rfl
  · exact .error (by rintro ⟨⟩ <;> simp_all) rfl

theorem judges_foldlM_addPair (xs : List Json) (pairs : List (Json × Json)) :
    Judges (∀ x ∈ xs, IsPair x) (xs.foldlM addPair pairs) := by
  induction xs generalizing pairs with
  | nil => exact .ok nofun _
  | cons x xs ih =>
      rw [List.foldlM_cons]
      exact ((judges_addPair pairs x).bind ih).congr List.forall_mem_cons.symm

theorem judges_pairs (v : Json) : Judges (HasPairs v) v.pairs := by
  rw [pairs.eq_def]
  split
  · exact .ok (.object _) _
  · exact (judges_foldlM_addPair _ []).congr ⟨.list, fun | .list h => h⟩
  · exact .ok .empty _
  · exact .error (by rintro ⟨⟩; contradiction) rfl
  · exact .error (by rintro ⟨⟩ <;> simp_all) rfl

end Json

end MediaCatalog
