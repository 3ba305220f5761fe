import MediaCatalog.Proofs.FileSystem.Inside

namespace MediaCatalog.FileSystem

variable {fs : FileSystem} {cwd p : Path} {here place : Place} {name : String}
  {names rest : List String} {open_ : List Place} {n : Nat} {followLast : Bool} {e : Errno}
  {f : Failure}

/-- Following the names comes back to a link that is still being followed. -/
def Loops (fs : FileSystem) (cwd p : Path) : Prop :=
  ∃ text, fs.trace (fs.linkCount + 2) [] [] (p.absolute cwd).parts = .looped text

/-- Too long to be looked up, or with a name that is. -/
def IsOverlong (p : Path) : Prop :=
  maxPath ≤ Text.Utf8.size p.toString ∨ ∃ c ∈ p.parts, maxName < Text.Utf8.size c

section Trace

/-- A place without links on the way and without the null character. -/
structure IsSettled (fs : FileSystem) (place : Place) : Prop where
  isOrdinary : ∀ c ∈ place, IsOrdinary c
  isUnlinked : fs.IsUnlinked place
  isClean : ∀ c ∈ place, ¬ hasNullName c

theorem isSettled_root : fs.IsSettled [] :=
  ⟨fun _ h => absurd h List.not_mem_nil, isUnlinked_root, fun _ h => absurd h List.not_mem_nil⟩

theorem IsSettled.parent (h : fs.IsSettled place) : fs.IsSettled place.dropLast where
  isOrdinary c hc := h.isOrdinary c (List.dropLast_subset _ hc)
  isUnlinked := h.isUnlinked.front (List.dropLast_prefix _)
  isClean c hc := h.isClean c (List.dropLast_subset _ hc)

theorem IsSettled.linkStart (h : fs.IsSettled here) (text : String) :
    fs.IsSettled (linkStart here text) := by
  rw [FileSystem.linkStart]
  split
  · exact isSettled_root
  · exact h

theorem IsSettled.concat (h : fs.IsSettled here) (hname : IsOrdinary name)
    (hnull : ¬ hasNullName name) (hlink : ∀ text, fs.node? (here ++ [name]) ≠ some (.link text)) :
    fs.IsSettled (here ++ [name]) where
  isOrdinary := isOrdinary_concat h.isOrdinary hname
  isUnlinked front hfront := by
    rcases List.prefix_concat_iff.1 hfront with rfl | hfront
    · exact hlink
    · exact h.isUnlinked front hfront
  isClean c hc := by
    rcases List.mem_append.1 hc with hc | hc
    · exact h.isClean c hc
    · obtain rfl := List.mem_singleton.1 hc
      exact hnull

theorem isSettled_of_trace (hhere : fs.IsSettled here)
    (h : fs.trace n open_ here names = .done place) : fs.IsSettled place := by
  induction n generalizing open_ here names place with
  | zero => cases h
  | succ n ih =>
      induction names generalizing here with
      | nil =>
          cases h
          exact hhere
      | cons name rest ihrest =>
          by_cases hidle : IsIdle name
          · rw [trace_stay hidle] at h
            exact ihrest hhere h
          by_cases hdots : name = ".."
          · subst hdots
            exact ihrest hhere.parent h
          have ho : IsOrdinary name := ⟨fun he => hidle (.inl he), fun he => hidle (.inr he), hdots⟩
          by_cases hnull : hasNullName name
          · rw [trace_null ho hnull] at h
            cases h
          rw [trace_ordinary ho hnull] at h
          split at h
          · rename_i text _
            split at h
            · rename_i there hinner
              split at hinner
              · cases hinner
              · exact ihrest (ih (hhere.linkStart text) hinner) h
            · cases h
            · cases h
          · rename_i hlink
            exact ihrest (hhere.concat ho hnull hlink) h

theorem isOrdinary_of_hasNullName (h : hasNullName name) : IsOrdinary name := by
  constructor <;> rintro rfl <;> exact absurd h (by decide)

theorem trace_of_hasNullName (h : ∃ c ∈ names, hasNullName c) :
    fs.trace n open_ here names = .null ∨ ∃ text, fs.trace n open_ here names = .looped text := by
  cases n with
  | zero => exact .inr ⟨_, rfl⟩
  | succ n =>
      induction names generalizing here with
      | nil => exact absurd h.choose_spec.1 List.not_mem_nil
      | cons name rest ih =>
          by_cases hnull : hasNullName name
          · exact .inl (trace_null (isOrdinary_of_hasNullName hnull) hnull)
          have hrest : ∃ c ∈ rest, hasNullName c := by
            obtain ⟨c, hc, hcnull⟩ := h
            rcases List.mem_cons.1 hc with rfl | hc
            · exact absurd hcnull hnull
            · exact ⟨c, hc, hcnull⟩
          by_cases hidle : IsIdle name
          · rw [trace_stay hidle]
            exact ih hrest
          by_cases hdots : name = ".."
          · subst hdots
            exact ih hrest
          have ho : IsOrdinary name := ⟨fun he => hidle (.inl he), fun he => hidle (.inr he), hdots⟩
          rw [trace_ordinary ho hnull]
          split
          · split
            · exact ih hrest
            · exact .inr ⟨_, rfl⟩
            · exact .inl rfl
          · exact ih hrest

end Trace

section Walk

theorem turn_eq_stop (h : fs.turn here name = .stop e) :
    e = .notDirectory ∨ e = .nameTooLong ∧ maxName < Text.Utf8.size name := by
  rw [turn] at h
  split at h
  · cases h
    exact .inl rfl
  split at h
  · cases h
  split at h
  · cases h
  split at h
  · cases h
    exact .inr ⟨rfl, ‹_›⟩
  · split at h <;> cases h

theorem walk_unlinked_error (hnames : ∀ c ∈ names, IsOrdinary c)
    (hun : fs.IsUnlinked (here ++ names))
    (h : walk fs followLast (n + 1) here names = .error e) :
    e = .notDirectory ∨ e = .noEntry ∨
      e = .nameTooLong ∧ ∃ c ∈ names, maxName < Text.Utf8.size c := by
  induction names generalizing here with
  | nil => cases h
  | cons name rest ih =>
      have ho : IsOrdinary name := hnames name List.mem_cons_self
      rw [List.append_cons] at hun
      rw [walk_cons] at h
      cases hturn : fs.turn here name with
      | stop e' =>
          rw [hturn] at h
          cases h
          rcases turn_eq_stop hturn with he | ⟨he, hlong⟩
          · exact .inl he
          · exact .inr (.inr ⟨he, name, List.mem_cons_self, hlong⟩)
      | goto next =>
          rw [hturn] at h
          obtain ⟨-, ⟨hidle, -⟩ | ⟨rfl, -⟩ | ⟨-, rfl, -⟩⟩ := turn_eq_goto hturn
          · exact absurd ho hidle.not_isOrdinary
          · exact absurd ho not_isOrdinary_dots
          refine (ih (fun c hc => hnames c (List.mem_cons_of_mem name hc)) hun h).imp_right
            (Or.imp_right ?_)
          rintro ⟨he, c, hc, hlong⟩
          exact ⟨he, c, List.mem_cons_of_mem name hc, hlong⟩
      | link text => exact absurd (turn_eq_link hturn).2.2 (hun _ (List.prefix_append _ _) text)
      | absent =>
          rw [hturn] at h
          dsimp only at h
          split at h
          · cases h
          · cases h
            exact .inr (.inl rfl)

theorem walk_error (h : walk fs followLast n here names = .error e) :
    e = .notDirectory ∨ e = .noEntry ∨ e = .loop ∨ e = .nameTooLong := by
  induction n, here, names using walk_induct with
  | zero =>
      cases h
      exact .inr (.inr (.inl rfl))
  | nil => cases h
  | cons n here name rest ihrest ihjump =>
      rw [walk_cons] at h
      cases hturn : fs.turn here name with
      | stop e' =>
          rw [hturn] at h
          cases h
          rcases turn_eq_stop hturn with rfl | ⟨rfl, -⟩
          · exact .inl rfl
          · exact .inr (.inr (.inr rfl))
      | goto next =>
          rw [hturn] at h
          exact ihrest next h
      | link text =>
          rw [hturn] at h
          dsimp only at h
          split at h
          · cases h
          · exact ihjump _ _ h
      | absent =>
          rw [hturn] at h
          dsimp only at h
          split at h
          · cases h
          · cases h
            exact .inr (.inl rfl)

theorem reach_error (h : fs.reach cwd p followLast = .error e) :
    meansAbsent e ∨ e = .nameTooLong := by
  rw [reach] at h
  split at h
  · cases h
    exact .inr rfl
  · rcases walk_error h with rfl | rfl | rfl | rfl
    · exact .inl rfl
    · exact .inl rfl
    · exact .inl rfl
    · exact .inr rfl

theorem IsSettled.reach_error (h : fs.IsSettled place)
    (hreach : fs.reach cwd ⟨.slash, place⟩ followLast = .error e) :
    e = .notDirectory ∨ e = .noEntry ∨ e = .nameTooLong ∧ IsOverlong ⟨.slash, place⟩ := by
  rw [reach] at hreach
  split at hreach
  · cases hreach
    exact .inr (.inr ⟨rfl, .inl ‹_›⟩)
  · have hun : fs.IsUnlinked ([] ++ place) := h.isUnlinked
    exact (walk_unlinked_error h.isOrdinary hun hreach).imp_right
      (Or.imp_right (And.imp_right .inr))

end Walk

section Resolve

theorem IsSettled.checkedForm_eq (h : fs.IsSettled place) (cwd : Path) :
    fs.checkedForm cwd ⟨.slash, place⟩ = .ok ⟨.slash, place⟩ := by
  have hnull : (Path.mk .slash place).hasNull = false :=
    List.any_eq_false.2 fun c hc => h.isClean c hc
  rw [checkedForm, Path.collapse_of_isOrdinary h.isOrdinary, hnull, if_neg Bool.false_ne_true]
  split
  · rename_i hloop
    obtain he | he | ⟨he, -⟩ := h.reach_error hloop <;> cases he
  · rfl

theorem not_loops_of_trace
    (h : fs.trace (fs.linkCount + 2) [] [] (p.absolute cwd).parts = .done place) :
    ¬ fs.Loops cwd p := by
  rintro ⟨text, hloop⟩
  cases h.symm.trans hloop

theorem IsSettled.not_loops (h : fs.IsSettled place) : ¬ fs.Loops cwd ⟨.slash, place⟩ := by
  have htrace : fs.trace (fs.linkCount + 2) [] [] place = .done ([] ++ place) :=
    trace_unlinked h.isOrdinary h.isClean h.isUnlinked
  exact not_loops_of_trace htrace

/-- In a proper file system a path without the null character and without loops has a canonical
form. -/
theorem IsProper.exists_resolve (hfs : fs.IsProper) (hclean : IsClean cwd p)
    (h : ¬ fs.Loops cwd p) : ∃ t, fs.resolve cwd p = .ok t := by
  have hparts : ∀ c ∈ (p.absolute cwd).parts, ¬ hasNullName c := fun c hc hnull =>
    hclean (List.any_eq_true.2 ⟨c, hc, hnull⟩)
  have htrace : (fs.trace (fs.linkCount + 2) [] [] (p.absolute cwd).parts).IsClean :=
    hfs.trace_isClean (fun _ h => absurd h List.not_mem_nil) hparts
  rw [FileSystem.resolve_eq]
  cases hout : fs.trace (fs.linkCount + 2) [] [] (p.absolute cwd).parts with
  | done place => exact ⟨_, (isSettled_of_trace isSettled_root hout).checkedForm_eq cwd⟩
  | looped text => exact absurd ⟨text, hout⟩ h
  | null =>
      rw [hout] at htrace
      exact htrace.elim

/-- Only a path that meets a loop can have a canonical form with a link on the way. -/
theorem isSettled_of_resolve {t : Path} (h : fs.resolve cwd p = .ok t)
    (hloops : ¬ fs.Loops cwd p) : ∃ place, t = ⟨.slash, place⟩ ∧ fs.IsSettled place := by
  rw [resolve_eq] at h
  cases hout : fs.trace (fs.linkCount + 2) [] [] (p.absolute cwd).parts with
  | done place =>
      rw [hout] at h
      have hsettled := isSettled_of_trace isSettled_root hout
      exact ⟨place, (Except.ok.inj ((hsettled.checkedForm_eq cwd).symm.trans h)).symm, hsettled⟩
  | looped text => exact absurd ⟨text, hout⟩ hloops
  | null =>
      rw [hout] at h
      cases h

theorem resolve_of_not_isClean (hclean : ¬ IsClean cwd p) (h : ¬ fs.Loops cwd p) :
    fs.resolve cwd p = .error nullCharacter := by
  have hnull : ∃ c ∈ (p.absolute cwd).parts, hasNullName c :=
    List.any_eq_true.1 (Decidable.not_not.1 hclean)
  have htrace : fs.trace (fs.linkCount + 2) [] [] (p.absolute cwd).parts = .null ∨ fs.Loops cwd p :=
    trace_of_hasNullName hnull
  rw [resolve_eq, htrace.resolve_right h]

theorem checkedForm_eq_error {plain : Path} (h : fs.checkedForm cwd plain = .error f) :
    f = nullCharacter ∨ ∃ t, f = symlinkLoop t := by
  rw [checkedForm] at h
  split at h
  · cases h
    exact .inl rfl
  split at h
  · cases h
    exact .inr ⟨_, rfl⟩
  · cases h

theorem resolve_eq_error (h : fs.resolve cwd p = .error f) :
    f = nullCharacter ∨ fs.Loops cwd p ∧ ∃ t, f = symlinkLoop t := by
  rw [resolve_eq] at h
  cases hout : fs.trace (fs.linkCount + 2) [] [] (p.absolute cwd).parts with
  | done place =>
      rw [hout] at h
      have hsettled := isSettled_of_trace isSettled_root hout
      cases (hsettled.checkedForm_eq cwd).symm.trans h
  | looped text =>
      rw [hout] at h
      exact (checkedForm_eq_error h).imp_right fun ht => ⟨⟨text, hout⟩, ht⟩
  | null =>
      rw [hout] at h
      cases h
      exact .inl rfl

end Resolve

section Questions

variable {base : Path} {wanted : Node → Bool}

theorem liesInside_of_relativeUnder {rel : Path}
    (h : fs.relativeUnder cwd base p = .ok (some rel)) : fs.LiesInside cwd base p := by
  obtain ⟨t, b, ht, hb, hrel⟩ := relativeUnder_eq_some h
  exact ⟨b, t, hb, ht, Path.relativeTo?_isSome.1 (Option.isSome_of_eq_some hrel)⟩

theorem relativeUnder_eq_none (h : fs.relativeUnder cwd base p = .ok none) :
    ¬ fs.LiesInside cwd base p := by
  intro hinside
  obtain ⟨rel, hrel⟩ := hinside.relativeUnder_isSome
  cases h.symm.trans hrel

/-- The null character counts as lying outside, but a loop does not. -/
theorem relativeUnder_eq_error (h : fs.relativeUnder cwd base p = .error f) :
    ∃ q, (q = p ∨ q = base) ∧ fs.Loops cwd q ∧ ∃ t, f = symlinkLoop t := by
  have hfault {q : Path} {g : Failure} (hq : fs.resolve cwd q = .error g)
      (hunder : fs.relativeUnder cwd base p = if g.isValue then .ok none else .error g) :
      fs.Loops cwd q ∧ ∃ t, f = symlinkLoop t := by
    rw [hunder] at h
    split at h
    · cases h
    · rename_i hvalue
      cases h
      rcases resolve_eq_error hq with rfl | hloop
      · exact absurd rfl hvalue
      · exact hloop
  rcases ht : fs.resolve cwd p with g | t
  · refine ⟨p, .inl rfl, hfault ht ?_⟩
    rw [relativeUnder, ht]
    rfl
  rcases hb : fs.resolve cwd base with g | b
  · refine ⟨base, .inr rfl, hfault hb ?_⟩
    rw [relativeUnder, ht, hb]
    rfl
  · rw [relativeUnder_eq ht hb] at h
    cases h

theorem find_eq_error :
    fs.find cwd p = .error e ↔ fs.reach cwd p true = .error e ∨
      e = .noEntry ∧ ∃ parent name, fs.reach cwd p true = .ok (.missing parent name) := by
  rw [find]
  rcases fs.reach cwd p true with e' | ⟨place⟩ | ⟨parent, name⟩
  · simp [bind, Except.bind]
  · simp [bind, Except.bind, pure, Except.pure]
  · simp [bind, Except.bind, throw, throwThe, MonadExceptOf.throw, eq_comm]

theorem test_of_find_error (hp : ¬ p.hasNull) (hfind : fs.find cwd p = .error e) :
    fs.test cwd p wanted = if meansAbsent e then .ok false else .error (e.failure p) := by
  rw [test, if_neg hp, lookup, hfind]
  rfl

theorem test_eq_error (h : fs.test cwd p wanted = .error f) :
    fs.reach cwd p true = .error .nameTooLong ∧ f = Errno.nameTooLong.failure p := by
  by_cases hp : p.hasNull
  · rw [test, if_pos hp] at h
    cases h
  rcases hfind : fs.find cwd p with e | place
  · rw [test_of_find_error hp hfind] at h
    split at h
    · cases h
    rename_i habsent
    rcases find_eq_error.1 hfind with hreach | ⟨rfl, -⟩
    · obtain rfl := (reach_error hreach).resolve_left habsent
      cases h
      exact ⟨hreach, rfl⟩
    · exact absurd rfl habsent
  · rw [test, if_neg hp, lookup, hfind] at h
    cases hnode : fs.node? place <;>
      simp only [bind, Except.bind, hnode] at h <;> cases h

theorem test_eq_false (hp : ¬ p.hasNull) (h : fs.test cwd p wanted = .ok false) :
    fs.reach cwd p true ≠ .error .nameTooLong ∧
      ∀ place e, fs.find cwd p = .ok place → fs.node? place = some e → ¬ wanted e := by
  constructor
  · intro hreach
    rw [test_of_find_error hp (find_eq_error.2 (.inl hreach))] at h
    cases h
  · intro place e hfind hnode
    rw [test, if_neg hp, lookup_of_find hfind hnode] at h
    rw [Except.ok.inj h]
    exact Bool.false_ne_true

end Questions

end MediaCatalog.FileSystem
