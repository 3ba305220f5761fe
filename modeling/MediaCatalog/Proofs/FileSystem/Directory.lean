import MediaCatalog.Proofs.FileSystem.Growth

namespace MediaCatalog.FileSystem

variable {fs fs' : FileSystem} {cwd p q : Path} {place : Place} {e : Node} {f : Failure}

def IsMadeFor (cwd p : Path) (place : Place) (e : Node) : Prop :=
  e = .directory ∧ ∃ name ∈ (p.absolute cwd).parts, place.getLast? = some name

def IsClean (cwd p : Path) : Prop := ¬ (p.absolute cwd).hasNull

section Names

theorem mem_parts_absolute {name : String} (h : name ∈ p.parts) :
    name ∈ (p.absolute cwd).parts := by
  rw [Path.absolute, Path.join]
  cases p.root with
  | none => exact List.mem_append_right _ h
  | slash | doubleSlash => exact h

theorem mem_parts_absolute_parent {name : String} (h : name ∈ (p.parent.absolute cwd).parts) :
    name ∈ (p.absolute cwd).parts := by
  rw [Path.absolute, Path.join, Path.parent] at h
  rw [Path.absolute, Path.join]
  cases hroot : p.root with
  | none =>
      simp only [hroot, List.mem_append] at h ⊢
      exact h.imp_right fun h => List.dropLast_subset _ h
  | slash | doubleSlash =>
      simp only [hroot] at h ⊢
      exact List.dropLast_subset _ h

theorem IsClean.hasNull (h : IsClean cwd p) : ¬ p.hasNull := by
  intro hnull
  obtain ⟨name, hname, hnull⟩ := List.any_eq_true.1 hnull
  exact h (List.any_eq_true.2 ⟨name, mem_parts_absolute hname, hnull⟩)

theorem IsClean.parent (h : IsClean cwd p) : IsClean cwd p.parent := by
  intro hnull
  obtain ⟨name, hname, hnull⟩ := List.any_eq_true.1 hnull
  exact h (List.any_eq_true.2 ⟨name, mem_parts_absolute_parent hname, hnull⟩)

theorem IsMadeFor.of_parent (h : IsMadeFor cwd p.parent place e) : IsMadeFor cwd p place e := by
  obtain ⟨he, name, hname, hlast⟩ := h
  exact ⟨he, name, mem_parts_absolute_parent hname, hlast⟩

end Names

section One

theorem missing_of_makeDir (h : fs.makeDir cwd p = .ok fs') : ∃ parent name,
    fs.reach cwd p false = .ok (.missing parent name) ∧
      fs' = fs.put (parent ++ [name]) .directory := by
  have hmade := failing_eq_ok h
  rcases hreach : fs.reach cwd p false with e | ⟨there⟩ | ⟨parent, name⟩
  · rw [hreach] at hmade
    cases hmade
  · rw [hreach] at hmade
    cases hmade
  · rw [hreach] at hmade
    exact ⟨parent, name, rfl, (Except.ok.inj hmade).symm⟩

theorem walk_of_reach {followLast : Bool} {out : Reach}
    (h : fs.reach cwd p followLast = .ok out) :
    walk fs followLast (maxLinks + 1) [] (p.absolute cwd).parts = .ok out := by
  rw [reach] at h
  split at h
  · cases h
  · exact h

theorem grows_makeDir (h : fs.makeDir cwd p = .ok fs') : Grows (IsMadeFor cwd p) fs fs' := by
  obtain ⟨parent, name, hreach, rfl⟩ := missing_of_makeDir h
  obtain ⟨hdir, -, hnone, hlast⟩ := missing_of_walk (walk_of_reach hreach)
  refine grows_put hdir hnone Bool.false_ne_true ⟨rfl, name, ?_, List.getLast?_concat⟩
  exact List.mem_of_getLast? (hlast rfl)

theorem find_of_makeDir (h : fs.makeDir cwd p = .ok fs') :
    ∃ place, place ≠ [] ∧ fs' = fs.put place .directory ∧ fs'.find cwd p = .ok place ∧
      fs'.node? place = some .directory ∧ fs.node? place = none := by
  have hgrows := grows_makeDir h
  obtain ⟨parent, name, hreach, rfl⟩ := missing_of_makeDir h
  have hwalk := walk_of_reach hreach
  obtain ⟨-, -, hnone, -⟩ := missing_of_walk hwalk
  have hself : (fs.put (parent ++ [name]) .directory).node? (parent ++ [name]) = some .directory :=
    node?_put_self (by simp) _
  refine ⟨parent ++ [name], by simp, rfl, ?_, hself, hnone⟩
  rw [find_eq_ok, reach]
  rw [reach] at hreach
  split at hreach
  · cases hreach
  · rw [if_neg ‹_›]
    exact hgrows.keepsWays.walk_missing hself Bool.false_ne_true hreach

theorem isSystem_of_makeDir (hp : IsClean cwd p) (h : fs.makeDir cwd p = .error f) :
    f.isSystem := by
  rcases failing_eq_error.1 h with ⟨hnull, -⟩ | ⟨-, e, -, rfl⟩
  · exact absurd hnull hp.hasNull
  · cases e <;> rfl

end One

section All

theorem unlessDir_eq_none (h : fs.unlessDir cwd p f = none) :
    ∃ place, fs.find cwd p = .ok place ∧ fs.node? place = some .directory := by
  rw [unlessDir] at h
  split at h
  · cases hdir : fs.isDir cwd p with
    | error g =>
        rw [hdir] at h
        cases h
    | ok isDir =>
        cases isDir with
        | false =>
            rw [hdir] at h
            cases h
        | true =>
            obtain ⟨place, e, hfind, hnode, hwanted⟩ := test_eq_true hdir
            obtain rfl := of_decide_eq_true hwanted
            exact ⟨place, hfind, hnode⟩
  · cases h

theorem isSystem_of_test {wanted : Node → Bool} (h : fs.test cwd p wanted = .error f) :
    f.isSystem := by
  rw [test] at h
  split at h
  · cases h
  · split at h
    · cases h
    · split at h
      · cases h
      · cases h
        rename_i e _ _
        cases e <;> rfl

theorem isSystem_of_unlessDir {g : Failure} (hf : f.isSystem) (h : fs.unlessDir cwd p f = some g) :
    g.isSystem := by
  rw [unlessDir, if_pos hf] at h
  cases hdir : fs.isDir cwd p with
  | error g' =>
      rw [hdir] at h
      cases h
      exact isSystem_of_test hdir
  | ok isDir =>
      cases isDir with
      | true =>
          rw [hdir] at h
          cases h
      | false =>
          rw [hdir] at h
          cases h
          exact hf

structure MakesDirs (cwd p : Path) (fs : FileSystem) (out : FileSystem × Option Failure) :
    Prop where
  grows : Grows (IsMadeFor cwd p) fs out.1
  finds : out.2 = none → ∃ place, out.1.find cwd p = .ok place ∧
    out.1.node? place = some .directory
  fails : IsClean cwd p → ∀ f, out.2 = some f → f.isSystem

theorem makesDirs_made (h : fs.makeDir cwd p = .ok fs') : MakesDirs cwd p fs (fs', none) where
  grows := grows_makeDir h
  finds _ := by
    obtain ⟨place, -, -, hfind, hdir, -⟩ := find_of_makeDir h
    exact ⟨place, hfind, hdir⟩
  fails _ f hf := by cases hf

theorem makesDirs_unlessDir (h : Grows (IsMadeFor cwd p) fs fs') (hf : IsClean cwd p → f.isSystem) :
    MakesDirs cwd p fs (fs', fs'.unlessDir cwd p f) where
  grows := h
  finds hnone := unlessDir_eq_none hnone
  fails hp _ hg := isSystem_of_unlessDir (hf hp) hg

theorem makesDirs (n : Nat) (fs : FileSystem) (cwd p : Path) :
    MakesDirs cwd p fs (makeDirs cwd n fs p) := by
  induction n generalizing fs p with
  | zero =>
      refine ⟨.refl _ fs, fun h => ?_, fun _ f hf => ?_⟩
      · cases h
      · cases hf
        rfl
  | succ n ih =>
      rw [makeDirs]
      cases hmade : fs.makeDir cwd p with
      | ok fs' => exact makesDirs_made hmade
      | error f =>
          dsimp only
          split
          · have hparents := ih fs p.parent
            have hgrows (fs' : FileSystem) (h : (makeDirs cwd n fs p.parent).1 = fs') :
                Grows (IsMadeFor cwd p) fs fs' := by
              subst h
              exact hparents.grows.weaken fun _ _ _ hmade => hmade.of_parent
            rcases hall : makeDirs cwd n fs p.parent with ⟨fs', g | g⟩
            · rw [hall] at hgrows
              dsimp only
              cases hagain : fs'.makeDir cwd p with
              | ok fs'' =>
                  have hmade' := makesDirs_made hagain
                  exact ⟨(hgrows fs' rfl).trans hmade'.grows, hmade'.finds, hmade'.fails⟩
              | error g =>
                  exact makesDirs_unlessDir (hgrows fs' rfl) fun hp => isSystem_of_makeDir hp hagain
            · rw [hall] at hgrows hparents
              refine ⟨hgrows fs' rfl, fun h => ?_, fun hp f hf => ?_⟩
              · cases h
              · exact hparents.fails hp.parent f hf
          · exact makesDirs_unlessDir (.refl _ fs) fun hp => isSystem_of_makeDir hp hmade

theorem makesDirs_ensureDir (fs : FileSystem) (cwd p : Path) :
    MakesDirs cwd p fs (fs.ensureDir cwd p) :=
  makesDirs _ fs cwd p

end All

end MediaCatalog.FileSystem
