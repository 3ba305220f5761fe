import MediaCatalog.FileSystem.Change
import MediaCatalog.Proofs.FileSystem.Resolve

namespace MediaCatalog.FileSystem

variable {fs fs' fs'' : FileSystem} {cwd p : Path} {place directory : Place} {e : Node}

section Put

theorem find?_setPlace (q : Place) (entries : List (Place × Node)) :
    (put.setPlace place e entries).find? (fun x => x.1 = q) =
      if q = place then some (place, e) else entries.find? (fun x => x.1 = q) := by
  induction entries with
  | nil =>
      by_cases hq : q = place
      · subst hq
        simp [put.setPlace]
      · simp [put.setPlace, hq, Ne.symm hq]
  | cons x entries ih =>
      by_cases hx : x.1 = place
      · by_cases hq : q = place
        · subst hq
          simp [put.setPlace, hx]
        · simp [put.setPlace, hx, hq, Ne.symm hq]
      · by_cases hq : q = place
        · subst hq
          simp [put.setPlace, hx, ih]
        · simp [put.setPlace, hx, hq, List.find?_cons, ih]

theorem node?_put_self (h : place ≠ []) (e : Node) : (fs.put place e).node? place = some e := by
  rw [node?.eq_2 _ _ h, put, find?_setPlace, if_pos rfl]
  rfl

theorem node?_put_of_ne {q : Place} (h : q ≠ place) (e : Node) :
    (fs.put place e).node? q = fs.node? q := by
  cases q with
  | nil => rfl
  | cons c q => rw [node?, node?, put, find?_setPlace, if_neg h] <;> exact List.cons_ne_nil c q

end Put

section Spares

/-- A change that leaves alone what stands in a directory, and puts no link on the way to it. -/
structure Spares (fs fs' : FileSystem) (directory : Place) : Prop where
  isUnlinked : fs.IsUnlinked directory → fs'.IsUnlinked directory
  child : ∀ name, fs'.node? (directory ++ [name]) = fs.node? (directory ++ [name])

theorem Spares.refl (fs : FileSystem) (directory : Place) : fs.Spares fs directory :=
  ⟨id, fun _ => rfl⟩

theorem Spares.trans (h : fs.Spares fs' directory) (h' : fs'.Spares fs'' directory) :
    fs.Spares fs'' directory :=
  ⟨fun hun => h'.isUnlinked (h.isUnlinked hun), fun name => (h'.child name).trans (h.child name)⟩

theorem spares_put (h : place <+: directory) : fs.Spares (fs.put place .directory) directory where
  isUnlinked hun front hfront text := by
    by_cases hplace : front = place
    · subst hplace
      cases front with
      | nil => exact fun he => nomatch he
      | cons c front =>
          rw [node?_put_self (List.cons_ne_nil c front)]
          exact fun he => nomatch he
    · rw [node?_put_of_ne hplace]
      exact hun front hfront text
  child name := by
    apply node?_put_of_ne
    rintro rfl
    have hlength := h.length_le
    rw [List.length_append, List.length_singleton] at hlength
    omega

end Spares

section Directories

theorem failing_eq_ok {α : Type} {r : Except Errno α} {a : α} (h : failing p r = .ok a) :
    r = .ok a := by
  rw [failing.eq_def] at h
  split at h
  · cases h
  · cases r with
    | ok b => exact congrArg Except.ok (Except.ok.inj h)
    | error e => cases h

theorem failing_eq_error {α : Type} {r : Except Errno α} {f : Failure} :
    failing p r = .error f ↔ p.hasNull ∧ f = nullCharacter ∨
      ¬ p.hasNull ∧ ∃ e, r = .error e ∧ f = e.failure p := by
  rw [failing.eq_def]
  by_cases hnull : p.hasNull
  · simp [hnull, eq_comm]
  · cases r <;> simp [hnull, eq_comm]

theorem makeDir_eq_ok (h : fs.makeDir cwd p = .ok fs') :
    ∃ out, fs.reach cwd p false = .ok out ∧ fs' = fs.put out.place .directory := by
  have hmade := failing_eq_ok h
  rcases hreach : fs.reach cwd p false with e | ⟨there⟩ | ⟨parent, name⟩
  · rw [hreach] at hmade
    cases hmade
  · rw [hreach] at hmade
    cases hmade
  · rw [hreach] at hmade
    exact ⟨_, rfl, (Except.ok.inj hmade).symm⟩

theorem spares_makeDir (hp : p.IsCanonical) (hun : fs.IsUnlinked directory)
    (hbelow : p.parts <+: directory) (h : fs.makeDir cwd p = .ok fs') :
    fs.Spares fs' directory := by
  obtain ⟨out, hreach, rfl⟩ := makeDir_eq_ok h
  have hplace := place_reach hp.isAbsolute hp.isOrdinary (hun.front hbelow) hreach
  exact spares_put (hplace ▸ hbelow)

theorem spares_makeDirs (n : Nat) (hp : p.IsCanonical) (hun : fs.IsUnlinked directory)
    (hbelow : p.parts <+: directory) : fs.Spares (makeDirs cwd n fs p).1 directory := by
  induction n generalizing fs p with
  | zero => exact .refl fs directory
  | succ n ih =>
      rw [makeDirs]
      split
      · rename_i fs' hmade
        exact spares_makeDir hp hun hbelow hmade
      split
      · -- What was made of the parents stays, also when making them fails halfway.
        have hparents := ih hp.parent hun ((List.dropLast_prefix _).trans hbelow)
        split
        · rename_i hall
          rwa [hall] at hparents
        · rename_i fs' hall
          rw [hall] at hparents
          split
          · rename_i hmade
            exact hparents.trans
              (spares_makeDir hp (hparents.isUnlinked hun) hbelow hmade)
          · exact hparents
      · exact .refl fs directory

theorem spares_ensureDir (hp : p.IsCanonical) (hun : fs.IsUnlinked p.parts) :
    fs.Spares (fs.ensureDir cwd p).1 p.parts :=
  spares_makeDirs _ hp hun (List.prefix_refl _)

end Directories

theorem store_eq_ok {content : Content} {now : Int} (hp : p.IsCanonical)
    (hun : fs.IsUnlinked p.parts) (h : fs.store cwd p content now = .ok fs') :
    fs' = fs.put p.parts (.file content now) := by
  have hstored := failing_eq_ok h
  rcases hreach : fs.reach cwd p true with e | ⟨there⟩ | ⟨parent, name⟩
  · rw [hreach] at hstored
    cases hstored
  · have hplace := place_reach hp.isAbsolute hp.isOrdinary hun hreach
    rw [hreach] at hstored
    dsimp only [bind, Except.bind] at hstored
    split at hstored
    · cases hstored
    · rw [← hplace]
      exact (Except.ok.inj hstored).symm
  · have hplace := place_reach hp.isAbsolute hp.isOrdinary hun hreach
    rw [hreach] at hstored
    rw [← hplace]
    exact (Except.ok.inj hstored).symm

end MediaCatalog.FileSystem
