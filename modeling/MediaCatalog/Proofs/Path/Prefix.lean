import MediaCatalog.Proofs.Path

namespace MediaCatalog.Path

/-- An absolute path as it is written once it has been read. -/
def IsAbsoluteText (s : String) : Prop := (ofString s).isAbsolute ∧ (ofString s).toString = s

instance (s : String) : Decidable (IsAbsoluteText s) :=
  inferInstanceAs (Decidable ((ofString s).isAbsolute ∧ (ofString s).toString = s))

def IsBelow (p dir : Path) : Prop := ∃ rest, rest ≠ [] ∧ p = ⟨dir.root, dir.parts ++ rest⟩

/-- At or below what stands beside a directory under a longer name that begins with its name. -/
def ExtendsName (p dir : Path) : Prop :=
  ∃ front name longer rest, dir.parts = front ++ [name] ∧ longer ≠ name ∧
    name.toList <+: longer.toList ∧ p = ⟨dir.root, front ++ longer :: rest⟩

/-- The components agree up to the last one of the first list, which may go on in the second. -/
inductive Begins : List String → List String → Prop
  | last {name longer : String} (h : name.toList <+: longer.toList) (rest : List String) :
      Begins [name] (longer :: rest)
  | step (c : String) {ds ps : List String} (h : Begins ds ps) : Begins (c :: ds) (c :: ps)

theorem Begins.ne_nil {ds ps : List String} (h : Begins ds ps) : ds ≠ [] ∧ ps ≠ [] := by
  cases h <;> simp

theorem begins_iff {ds ps : List String} : Begins ds ps ↔ ∃ front name longer rest,
    ds = front ++ [name] ∧ ps = front ++ longer :: rest ∧ name.toList <+: longer.toList := by
  constructor
  · intro h
    induction h with
    | @last name longer h rest => exact ⟨[], name, longer, rest, rfl, rfl, h⟩
    | step c _ ih =>
        obtain ⟨front, name, longer, rest, rfl, rfl, h⟩ := ih
        exact ⟨c :: front, name, longer, rest, rfl, rfl, h⟩
  · rintro ⟨front, name, longer, rest, rfl, rfl, h⟩
    induction front with
    | nil => exact .last h rest
    | cons c front ih => exact .step c ih

section Join

variable {a b x y : List Char} {c d : String} {ds ps : List String}

theorem joinParts_cons (c : String) (h : ps ≠ []) :
    joinParts (c :: ps) = c.toList ++ '/' :: joinParts ps := by
  cases ps with
  | nil => exact absurd rfl h
  | cons d ps => rfl

theorem prefix_of_slash (ha : '/' ∉ a) (h : a <+: b ++ '/' :: x) : a <+: b := by
  rcases List.prefix_or_prefix_of_prefix h (List.prefix_append b ('/' :: x)) with hab | ⟨s, rfl⟩
  · exact hab
  · rw [List.prefix_append_right_inj] at h
    cases s with
    | nil => simp
    | cons d s =>
        obtain ⟨rfl, -⟩ := List.cons_prefix_cons.1 h
        exact absurd (List.mem_append_right b List.mem_cons_self) ha

theorem slash_prefix_slash (ha : '/' ∉ a) (hb : '/' ∉ b) (h : a ++ '/' :: x <+: b ++ '/' :: y) :
    a = b ∧ x <+: y := by
  obtain ⟨s, hs⟩ := h
  rw [List.append_assoc, List.cons_append] at hs
  have hsplit := congrArg splitSlash hs
  rw [splitSlash_append _ _ ha, splitSlash_append _ _ hb] at hsplit
  obtain ⟨rfl, -⟩ := List.cons.inj hsplit
  exact ⟨rfl, s, (List.cons.inj (List.append_cancel_left hs)).2⟩

theorem last_prefix_iff (hd : IsComponent d) (ps : List String) :
    d.toList <+: joinParts (c :: ps) ↔ d.toList <+: c.toList := by
  by_cases hps : ps = []
  · subst hps
    rfl
  · rw [joinParts_cons c hps]
    exact ⟨prefix_of_slash hd.no_slash, fun h => h.trans (List.prefix_append _ _)⟩

theorem cons_prefix_cons_iff (hd : IsComponent d) (hc : IsComponent c) (hds : ds ≠ []) :
    joinParts (d :: ds) <+: joinParts (c :: ps) ↔
      d = c ∧ ps ≠ [] ∧ joinParts ds <+: joinParts ps := by
  rw [joinParts_cons d hds]
  constructor
  · intro h
    by_cases hps : ps = []
    · subst hps
      exact absurd (h.subset (by simp)) hc.no_slash
    · rw [joinParts_cons c hps] at h
      obtain ⟨hdc, hrest⟩ := slash_prefix_slash hd.no_slash hc.no_slash h
      exact ⟨String.toList_inj.1 hdc, hps, hrest⟩
  · rintro ⟨rfl, hps, hrest⟩
    rw [joinParts_cons d hps, List.prefix_append_right_inj, List.cons_prefix_cons]
    exact ⟨rfl, hrest⟩

theorem joinParts_prefix_iff (hds : ds ≠ []) (hd : ∀ c ∈ ds, IsComponent c)
    (hp : ∀ c ∈ ps, IsComponent c) : joinParts ds <+: joinParts ps ↔ Begins ds ps := by
  -- Both lists go on together until the first one has one component left, which alone may be cut.
  induction ds generalizing ps with
  | nil => exact absurd rfl hds
  | cons d ds ih =>
      obtain ⟨hdc, hds'⟩ := List.forall_mem_cons.1 hd
      cases ps with
      | nil =>
          refine iff_of_false (fun h => ?_) fun h => h.ne_nil.2 rfl
          have hempty : joinParts (d :: ds) = [] := List.prefix_nil.1 h
          have hback := partsOf_joinParts hd
          rw [hempty] at hback
          exact absurd hback (List.cons_ne_nil d ds).symm
      | cons c ps =>
          obtain ⟨hc, hps⟩ := List.forall_mem_cons.1 hp
          by_cases hlast : ds = []
          · subst hlast
            refine (last_prefix_iff hdc ps).trans ⟨fun h => .last h ps, fun h => ?_⟩
            cases h with
            | last h => exact h
            | step _ h => exact absurd rfl h.ne_nil.1
          · rw [cons_prefix_cons_iff hdc hc hlast]
            constructor
            · rintro ⟨rfl, -, hrest⟩
              exact .step d ((ih hlast hds' hps).1 hrest)
            · intro h
              cases h with
              | last => exact absurd rfl hlast
              | step _ h => exact ⟨rfl, h.ne_nil.2, (ih hlast hds' hps).2 h⟩

end Join

variable {p dir : Path}

theorem root_eq_of_prefix (hp : p.IsNormal) (hdir : dir.IsNormal) (hne : dir.parts ≠ [])
    (h : Root.chars dir.root ++ joinParts dir.parts <+: Root.chars p.root ++ joinParts p.parts) :
    dir.root = p.root := by
  obtain ⟨s, hs⟩ := h
  have hhead : (joinParts dir.parts ++ s).head? ≠ some '/' := by
    have hfirst := head_joinParts hdir
    cases hjoin : joinParts dir.parts with
    | nil =>
        have hback := partsOf_joinParts hdir
        rw [hjoin] at hback
        exact absurd hback.symm hne
    | cons a l => rwa [hjoin] at hfirst
  have hroot := congrArg rootOf hs
  rwa [List.append_assoc, rootOf_chars hhead, rootOf_chars (head_joinParts hp)] at hroot

theorem IsBelow.not_extendsName (h : p.IsBelow dir) : ¬ p.ExtendsName dir := by
  rintro ⟨front, name, longer, rest, hparts, hne, -, rfl⟩
  obtain ⟨more, -, hmore⟩ := h
  have hsame : front ++ longer :: rest = front ++ name :: more := by
    simpa [hparts] using congrArg Path.parts hmore
  exact hne (List.cons.inj (List.append_cancel_left hsame)).1

/-- The text of a path begins with that of a directory, which is not the root, if the path is the
directory, lies below it, or goes on in its last component. -/
theorem chars_prefix_iff (hp : p.IsNormal) (hdir : dir.IsNormal) (habs : p.isAbsolute)
    (hne : dir.parts ≠ []) :
    dir.chars <+: p.chars ↔ p = dir ∨ p.IsBelow dir ∨ p.ExtendsName dir := by
  have hroot : p.root ≠ .none := bne_iff_ne.1 habs
  rw [chars_eq (.inr hne), chars_eq (.inl hroot)]
  constructor
  · intro h
    have heq := root_eq_of_prefix hp hdir hne h
    rw [heq, List.prefix_append_right_inj, joinParts_prefix_iff hne hdir hp, begins_iff] at h
    obtain ⟨front, name, longer, rest, hparts, hgo, hname⟩ := h
    have hpath : p = ⟨dir.root, front ++ longer :: rest⟩ := by rw [heq, ← hgo]
    by_cases hsame : longer = name
    · have hbelow : p = ⟨dir.root, dir.parts ++ rest⟩ := by
        rw [hpath, hparts, hsame, List.append_assoc, List.singleton_append]
      by_cases hrest : rest = []
      · exact .inl (by rw [hbelow, hrest, List.append_nil])
      · exact .inr (.inl ⟨rest, hrest, hbelow⟩)
    · exact .inr (.inr ⟨front, name, longer, rest, hparts, hsame, hname, hpath⟩)
  · rintro (rfl | ⟨rest, -, rfl⟩ | ⟨front, name, longer, rest, hparts, -, hname, rfl⟩)
    · exact List.prefix_rfl
    · rw [List.prefix_append_right_inj, joinParts_prefix_iff hne hdir hp, begins_iff]
      have hlast := List.dropLast_concat_getLast hne
      refine ⟨_, _, dir.parts.getLast hne, rest, hlast.symm, ?_, List.prefix_rfl⟩
      rw [← List.singleton_append, ← List.append_assoc, hlast]
    · rw [List.prefix_append_right_inj, joinParts_prefix_iff hne hdir hp, begins_iff]
      exact ⟨front, name, longer, rest, hparts, rfl, hname⟩

theorem IsAbsoluteText.chars_ofString {s : String} (h : IsAbsoluteText s) :
    (ofString s).chars = s.toList := by
  have htext := congrArg String.toList h.2
  rwa [toString, String.toList_ofList] at htext

theorem isPrefixOf_iff {s t : String} (hs : IsAbsoluteText s) (ht : IsAbsoluteText t)
    (hne : (ofString s).parts ≠ []) : s.toList.isPrefixOf t.toList ↔
      ofString t = ofString s ∨ (ofString t).IsBelow (ofString s) ∨
        (ofString t).ExtendsName (ofString s) := by
  rw [List.isPrefixOf_iff_prefix, ← hs.chars_ofString, ← ht.chars_ofString]
  exact chars_prefix_iff (isNormal_ofChars _) (isNormal_ofChars _) ht.1 hne

end MediaCatalog.Path
