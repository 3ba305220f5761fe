import MediaCatalog.Path

namespace MediaCatalog.Path

/-- What stands between the slashes of a path once empty components and single dots are gone. -/
structure IsComponent (c : String) : Prop where
  ne_empty : c ≠ ""
  ne_dot : c ≠ "."
  no_slash : '/' ∉ c.toList

/-- A path as reading one from a text gives it. -/
def IsNormal (p : Path) : Prop := ∀ c ∈ p.parts, IsComponent c

theorem IsComponent.toList_ne_nil {c : String} (h : IsComponent c) : c.toList ≠ [] :=
  fun he => h.ne_empty (String.toList_inj.1 he)

theorem IsComponent.isPart {c : String} (h : IsComponent c) : isPart c.toList := by
  have hdot : c.toList ≠ ['.'] := fun he => h.ne_dot (String.toList_inj.1 he)
  simp only [Path.isPart, Bool.and_eq_true, bne_iff_ne, ne_eq]
  exact ⟨h.toList_ne_nil, hdot⟩

section Split

theorem splitSlash_cons {c : Char} (h : c ≠ '/') {s p : List Char} {ps : List (List Char)}
    (hs : splitSlash s = p :: ps) : splitSlash (c :: s) = (c :: p) :: ps := by
  rw [splitSlash, hs]
  intro hc
  exact absurd hc h

theorem splitSlash_append (a s : List Char) (h : '/' ∉ a) :
    splitSlash (a ++ '/' :: s) = a :: splitSlash s := by
  induction a with
  | nil => rfl
  | cons c a ih =>
      obtain ⟨hc, ha⟩ := not_or.1 (mt List.mem_cons.2 h)
      exact splitSlash_cons (Ne.symm hc) (ih ha)

theorem splitSlash_of_not_mem (a : List Char) (h : '/' ∉ a) : splitSlash a = [a] := by
  induction a with
  | nil => rfl
  | cons c a ih =>
      obtain ⟨hc, ha⟩ := not_or.1 (mt List.mem_cons.2 h)
      exact splitSlash_cons (Ne.symm hc) (ih ha)

theorem splitSlash_ne_nil (s : List Char) : splitSlash s ≠ [] := by
  induction s with
  | nil => exact List.cons_ne_nil _ _
  | cons c s ih =>
      by_cases hc : c = '/'
      · subst hc
        exact List.cons_ne_nil _ _
      · obtain ⟨p, ps, hs⟩ := List.exists_cons_of_ne_nil ih
        rw [splitSlash_cons hc hs]
        exact List.cons_ne_nil _ _

theorem slash_not_mem_of_mem_splitSlash {s a : List Char} (h : a ∈ splitSlash s) : '/' ∉ a := by
  induction s generalizing a with
  | nil =>
      obtain rfl := List.mem_singleton.1 h
      exact List.not_mem_nil
  | cons c s ih =>
      by_cases hc : c = '/'
      · subst hc
        rcases List.mem_cons.1 h with rfl | h
        · exact List.not_mem_nil
        · exact ih h
      · obtain ⟨p, ps, hs⟩ := List.exists_cons_of_ne_nil (splitSlash_ne_nil s)
        rw [hs] at ih
        rw [splitSlash_cons hc hs] at h
        rcases List.mem_cons.1 h with rfl | h
        · intro hmem
          rcases List.mem_cons.1 hmem with he | hmem
          · exact hc he.symm
          · exact ih List.mem_cons_self hmem
        · exact ih (List.mem_cons_of_mem p h)

theorem mem_of_mem_splitSlash {s a : List Char} {c : Char} (h : a ∈ splitSlash s) (hc : c ∈ a) :
    c ∈ s := by
  induction s generalizing a with
  | nil =>
      obtain rfl := List.mem_singleton.1 h
      exact hc
  | cons d s ih =>
      by_cases hd : d = '/'
      · subst hd
        rcases List.mem_cons.1 h with rfl | h
        · exact absurd hc List.not_mem_nil
        · exact List.mem_cons_of_mem _ (ih h hc)
      · obtain ⟨p, ps, hs⟩ := List.exists_cons_of_ne_nil (splitSlash_ne_nil s)
        rw [hs] at ih
        rw [splitSlash_cons hd hs] at h
        rcases List.mem_cons.1 h with rfl | h
        · rcases List.mem_cons.1 hc with rfl | hc
          · exact List.mem_cons_self
          · exact List.mem_cons_of_mem _ (ih List.mem_cons_self hc)
        · exact List.mem_cons_of_mem _ (ih (List.mem_cons_of_mem p h) hc)

end Split

theorem joinParts_concat {ps : List String} (h : ps ≠ []) (name : String) :
    joinParts (ps ++ [name]) = joinParts ps ++ '/' :: name.toList := by
  induction ps with
  | nil => exact absurd rfl h
  | cons p ps ih =>
      cases ps with
      | nil => rfl
      | cons q ps =>
          calc joinParts (p :: q :: ps ++ [name])
              = p.toList ++ '/' :: joinParts (q :: ps ++ [name]) := rfl
            _ = p.toList ++ '/' :: (joinParts (q :: ps) ++ '/' :: name.toList) := by
                rw [ih (List.cons_ne_nil q ps)]
            _ = joinParts (p :: q :: ps) ++ '/' :: name.toList := by
                rw [← List.cons_append, ← List.append_assoc]
                rfl

theorem partsOf_joinParts {ps : List String} (h : ∀ c ∈ ps, IsComponent c) :
    partsOf (joinParts ps) = ps := by
  induction ps with
  | nil => rfl
  | cons c ps ih =>
      have hc := h c List.mem_cons_self
      have hkeep : [c.toList].filter isPart = [c.toList] := by
        rw [List.filter_cons_of_pos hc.isPart, List.filter_nil]
      have hback : String.ofList c.toList = c := String.ofList_toList
      cases ps with
      | nil =>
          rw [joinParts, partsOf, splitSlash_of_not_mem _ hc.no_slash, hkeep, List.map_singleton,
            hback]
      | cons d ps =>
          have hps := ih fun e he => h e (List.mem_cons_of_mem c he)
          rw [partsOf] at hps
          rw [joinParts, partsOf, splitSlash_append _ _ hc.no_slash, List.filter_cons,
            if_pos hc.isPart, List.map_cons, hps, hback]
          exact List.cons_ne_nil d ps

theorem head_joinParts {ps : List String} (h : ∀ c ∈ ps, IsComponent c) :
    (joinParts ps).head? ≠ some '/' := by
  cases ps with
  | nil => simp [joinParts]
  | cons c ps =>
      have hc := h c List.mem_cons_self
      obtain ⟨a, l, hl⟩ := List.exists_cons_of_ne_nil hc.toList_ne_nil
      have ha : a ≠ '/' := by
        intro he
        apply hc.no_slash
        rw [hl, he]
        exact List.mem_cons_self
      have hhead : (joinParts (c :: ps)).head? = some a := by
        cases ps <;> simp [joinParts, hl]
      rw [hhead]
      exact fun he => ha (Option.some.inj he)

theorem rootOf_chars {s : List Char} (h : s.head? ≠ some '/') (r : Root) :
    rootOf (Root.chars r ++ s) = r := by
  cases s with
  | nil => cases r <;> rfl
  | cons a s =>
      have ha : a ≠ '/' := fun he => h (congrArg some he)
      cases r <;> simp [Root.chars, rootOf, ha]

theorem partsOf_rootChars (r : Root) (s : List Char) : partsOf (Root.chars r ++ s) = partsOf s := by
  cases r <;> rfl

/-- Only the empty relative path has a text of its own, a single dot. -/
theorem chars_eq {p : Path} (h : p.root ≠ .none ∨ p.parts ≠ []) :
    p.chars = Root.chars p.root ++ joinParts p.parts := by
  obtain ⟨r, ps⟩ := p
  cases r with
  | none =>
      cases ps with
      | nil => exact absurd rfl (h.resolve_left (fun hr => hr rfl))
      | cons c ps => rfl
  | slash => rfl
  | doubleSlash => rfl

theorem ofChars_chars {p : Path} (h : p.IsNormal) : ofChars p.chars = p := by
  by_cases hp : p.root ≠ .none ∨ p.parts ≠ []
  · rw [chars_eq hp, ofChars, rootOf_chars (head_joinParts h), partsOf_rootChars,
      partsOf_joinParts h]
  · obtain ⟨r, ps⟩ := p
    obtain ⟨hr, hps⟩ := not_or.1 hp
    obtain rfl := Decidable.not_not.1 hr
    obtain rfl := Decidable.not_not.1 hps
    rfl

theorem ofString_component {c : String} (h : IsComponent c) : ofString c = ⟨.none, [c]⟩ := by
  have hnormal : (Path.mk .none [c]).IsNormal := fun d hd => List.mem_singleton.1 hd ▸ h
  exact ofChars_chars hnormal

theorem div_component {c : String} (h : IsComponent c) (p : Path) :
    p / c = ⟨p.root, p.parts ++ [c]⟩ := by
  change p.join (ofString c) = _
  rw [ofString_component h]
  rfl

theorem isNormal_ofChars (s : List Char) : (ofChars s).IsNormal := by
  intro c hc
  obtain ⟨a, ha, rfl⟩ := List.mem_map.1 hc
  obtain ⟨hmem, hpart⟩ := List.mem_filter.1 ha
  rw [isPart, Bool.and_eq_true, bne_iff_ne, bne_iff_ne] at hpart
  refine ⟨fun he => hpart.1 ?_, fun he => hpart.2 ?_, ?_⟩
  · rw [← String.toList_ofList (l := a), he]
    rfl
  · rw [← String.toList_ofList (l := a), he]
    rfl
  · rw [String.toList_ofList]
    exact slash_not_mem_of_mem_splitSlash hmem

theorem IsNormal.join {p q : Path} (hp : p.IsNormal) (hq : q.IsNormal) : (p.join q).IsNormal := by
  rw [Path.join]
  cases q.root with
  | none =>
      intro c hc
      rcases List.mem_append.1 hc with hc | hc
      · exact hp c hc
      · exact hq c hc
  | slash => exact hq
  | doubleSlash => exact hq

theorem isAbsolute_absolute (p : Path) {cwd : Path} (h : cwd.isAbsolute) :
    (p.absolute cwd).isAbsolute := by
  obtain ⟨r, ps⟩ := p
  cases r with
  | none => exact h
  | slash => rfl
  | doubleSlash => rfl

theorem isAbsolute_ofChars {s : List Char} (h : s.head? = some '/') : (ofChars s).isAbsolute := by
  cases s with
  | nil => cases h
  | cons a s =>
      obtain rfl := Option.some.inj h
      rw [isAbsolute, ofChars, rootOf.eq_def]
      split
      · rfl
      · rfl
      · rfl
      · rename_i hslash
        exact absurd rfl (hslash s)

theorem absolute_of_isAbsolute {p : Path} (h : p.isAbsolute) (cwd : Path) : p.absolute cwd = p := by
  obtain ⟨r, ps⟩ := p
  cases r with
  | none => exact absurd h Bool.false_ne_true
  | slash => rfl
  | doubleSlash => rfl

theorem chars_of_isAbsolute {p : Path} (h : p.isAbsolute) : ∃ s, p.chars = '/' :: s := by
  obtain ⟨r, ps⟩ := p
  cases r with
  | none => exact absurd h Bool.false_ne_true
  | slash => exact ⟨_, rfl⟩
  | doubleSlash => exact ⟨_, rfl⟩

end MediaCatalog.Path
