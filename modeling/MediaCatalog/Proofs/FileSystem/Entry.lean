import MediaCatalog.Proofs.FileSystem.Directory

namespace MediaCatalog.FileSystem

structure IsPlain (name : String) : Prop where
  isComponent : Path.IsComponent name
  ne_dots : name ≠ ".."
  clean : ¬ hasNullName name

theorem IsPlain.isOrdinary {name : String} (h : IsPlain name) : IsOrdinary name :=
  ⟨h.isComponent.ne_empty, h.isComponent.ne_dot, h.ne_dots⟩

def Fits (p : Path) (name : String) : Prop :=
  ¬ maxPath ≤ Text.Utf8.size (p / name).toString ∧ ¬ maxName < Text.Utf8.size name

variable {fs fs' : FileSystem} {cwd p : Path} {directory : Place} {name new : String}
  {followLast : Bool} {e : Node} {content : Content} {now changedAt : Int}

structure Houses (fs : FileSystem) (cwd p : Path) (directory : Place) : Prop where
  find : fs.find cwd p = .ok directory
  node : fs.node? directory = some .directory

theorem Houses.unique {directory' : Place} (h : fs.Houses cwd p directory)
    (h' : fs.Houses cwd p directory') : directory' = directory :=
  Except.ok.inj (h'.find.symm.trans h.find)

theorem Houses.keep (h : fs.Houses cwd p directory) (hways : fs.KeepsWays fs') :
    fs'.Houses cwd p directory := by
  have hdir := hways directory .directory h.node rfl
  exact ⟨hways.find_eq (hdir.trans h.node.symm) h.find, hdir⟩

theorem Houses.put (h : fs.Houses cwd p directory) (hnone : fs.node? (directory ++ [name]) = none)
    (hlink : ¬ isLink e) : (fs.put (directory ++ [name]) e).Houses cwd p directory := by
  have hgrows : Grows (fun _ _ => True) fs (fs.put (directory ++ [name]) e) :=
    grows_put h.node hnone hlink trivial
  exact h.keep hgrows.keepsWays

theorem IsClean.div (hp : IsClean cwd p) (hname : IsPlain name) : IsClean cwd (p / name) := by
  intro hnull
  obtain ⟨c, hc, hc'⟩ := List.any_eq_true.1 hnull
  rw [parts_absolute_div hname.isComponent] at hc
  rcases List.mem_append.1 hc with hc | hc
  · exact hp (List.any_eq_true.2 ⟨c, hc, hc'⟩)
  · obtain rfl := List.mem_singleton.1 hc
    exact hname.clean hc'

section Reach

theorem Houses.turn (h : fs.Houses cwd p directory) (hname : IsPlain name)
    (hfits : Fits p name) : fs.turn directory name = match fs.node? (directory ++ [name]) with
      | none => .absent
      | some (.link text) => .link text
      | some _ => .goto (directory ++ [name]) :=
  turn_of_isOrdinary h.node hname.isOrdinary hfits.2

theorem Houses.reach_unfit (h : fs.Houses cwd p directory) (hname : IsPlain name)
    (hfits : ¬ Fits p name) : fs.reach cwd (p / name) followLast = .error .nameTooLong := by
  obtain ⟨m, -, hreach⟩ := reach_div followLast hname.isComponent h.find
  rw [hreach]
  by_cases hpath : maxPath ≤ Text.Utf8.size (p / name).toString
  · rw [if_pos hpath]
  · have hlong : maxName < Text.Utf8.size name :=
      Decidable.not_not.1 fun hlong => hfits ⟨hpath, hlong⟩
    have hname' := hname.isOrdinary
    rw [if_neg hpath, walk_cons, FileSystem.turn, if_neg (not_not_intro h.node),
      if_neg (by simp [hname'.ne_empty, hname'.ne_dot]), if_neg hname.ne_dots, if_pos hlong]

theorem Houses.reach_absent (h : fs.Houses cwd p directory) (hname : IsPlain name)
    (hfits : Fits p name) (hnone : fs.node? (directory ++ [name]) = none) :
    fs.reach cwd (p / name) followLast = .ok (.missing directory name) := by
  obtain ⟨m, -, hreach⟩ := reach_div followLast hname.isComponent h.find
  rw [hreach, if_neg hfits.1, walk_cons, h.turn hname hfits, hnone]
  rfl

theorem Houses.reach_present (h : fs.Houses cwd p directory) (hname : IsPlain name)
    (hfits : Fits p name) (he : fs.node? (directory ++ [name]) = some e) (hlink : ¬ isLink e) :
    fs.reach cwd (p / name) followLast = .ok (.found (directory ++ [name])) := by
  obtain ⟨m, -, hreach⟩ := reach_div followLast hname.isComponent h.find
  rw [hreach, if_neg hfits.1, walk_cons, h.turn hname hfits, he]
  cases e with
  | directory | file => rfl
  | link => exact absurd rfl hlink

end Reach

section Operations

theorem failing_clean {α : Type} {q : Path} {r : Except Errno α} (hq : ¬ q.hasNull) :
    failing q r = match r with
      | .ok a => .ok a
      | .error e => .error (e.failure q) := by
  cases r with
  | ok | error => exact if_neg hq

theorem isSystem_failure (e : Errno) (q : Path) : (e.failure q).isSystem := by
  cases e <;> rfl

theorem Houses.store_unfit (h : fs.Houses cwd p directory) (hp : IsClean cwd p)
    (hname : IsPlain name) (hfits : ¬ Fits p name) :
    fs.store cwd (p / name) content now = .error (Errno.nameTooLong.failure (p / name)) := by
  rw [store, failing_clean (hp.div hname).hasNull, h.reach_unfit hname hfits]
  rfl

theorem Houses.store_absent (h : fs.Houses cwd p directory) (hp : IsClean cwd p)
    (hname : IsPlain name) (hfits : Fits p name) (hnone : fs.node? (directory ++ [name]) = none) :
    fs.store cwd (p / name) content now =
      .ok (fs.put (directory ++ [name]) (.file content now)) := by
  rw [store, failing_clean (hp.div hname).hasNull, h.reach_absent hname hfits hnone]
  rfl

theorem Houses.makeDir_absent (h : fs.Houses cwd p directory) (hp : IsClean cwd p)
    (hname : IsPlain name) (hfits : Fits p name) (hnone : fs.node? (directory ++ [name]) = none) :
    fs.makeDir cwd (p / name) = .ok (fs.put (directory ++ [name]) .directory) := by
  rw [makeDir, failing_clean (hp.div hname).hasNull, h.reach_absent hname hfits hnone]
  rfl

theorem Houses.ensureDir_absent (h : fs.Houses cwd p directory) (hp : IsClean cwd p)
    (hname : IsPlain name) (hfits : Fits p name) (hnone : fs.node? (directory ++ [name]) = none) :
    fs.ensureDir cwd (p / name) = (fs.put (directory ++ [name]) .directory, none) := by
  rw [ensureDir, makeDirs, h.makeDir_absent hp hname hfits hnone]

theorem Houses.unlink_absent (h : fs.Houses cwd p directory) (hp : IsClean cwd p)
    (hname : IsPlain name) (hnone : fs.node? (directory ++ [name]) = none) :
    ∃ e : Errno, fs.unlink cwd (p / name) = .error (e.failure (p / name)) := by
  rw [unlink, failing_clean (hp.div hname).hasNull]
  by_cases hfits : Fits p name
  · rw [h.reach_absent hname hfits hnone]
    exact ⟨.noEntry, rfl⟩
  · rw [h.reach_unfit hname hfits]
    exact ⟨.nameTooLong, rfl⟩

theorem Houses.unlink_file (h : fs.Houses cwd p directory) (hp : IsClean cwd p)
    (hname : IsPlain name) (hfits : Fits p name)
    (he : fs.node? (directory ++ [name]) = some (.file content changedAt)) :
    fs.unlink cwd (p / name) = .ok (fs.erase (directory ++ [name])) := by
  rw [unlink, failing_clean (hp.div hname).hasNull, h.reach_present hname hfits he (by simp [isLink])]
  dsimp only [bind, Except.bind]
  rw [he]
  rfl

theorem Houses.rename_file (h : fs.Houses cwd p directory) (hp : IsClean cwd p)
    (hname : IsPlain name) (hfits : Fits p name)
    (he : fs.node? (directory ++ [name]) = some (.file content changedAt))
    (hnew : IsPlain new) (hfits' : Fits p new) (hnone : fs.node? (directory ++ [new]) = none) :
    fs.rename cwd (p / name) (p / new) =
      .ok ((fs.erase (directory ++ [name])).put (directory ++ [new]) (.file content changedAt)) := by
  rw [rename, failing_clean (hp.div hname).hasNull,
    h.reach_present hname hfits he (by simp [isLink]), h.reach_absent hnew hfits' hnone]
  dsimp only [bind, Except.bind]
  rw [he]
  rfl

theorem Houses.find_file (h : fs.Houses cwd p directory) (hname : IsPlain name)
    (hfits : Fits p name)
    (he : fs.node? (directory ++ [name]) = some (.file content changedAt)) :
    fs.find cwd (p / name) = .ok (directory ++ [name]) := by
  rw [find_eq_ok]
  exact h.reach_present hname hfits he (by simp [isLink])

/-- A directory that is found by its name stands in the directory that has the name, unless it is
found through a link. -/
theorem Houses.unique_div {directory' : Place} (h : fs.Houses cwd p directory)
    (hname : IsPlain name) (hfits : Fits p name)
    (hlink : ∀ text, fs.node? (directory ++ [name]) ≠ some (.link text))
    (h' : fs.Houses cwd (p / name) directory') : directory' = directory ++ [name] := by
  have hfind := find_eq_ok.1 h'.find
  cases he : fs.node? (directory ++ [name]) with
  | none =>
      rw [h.reach_absent hname hfits he] at hfind
      cases hfind
  | some e =>
      have hnot : ¬ isLink e := by
        cases e with
        | link text => exact absurd he (hlink text)
        | directory | file => exact Bool.false_ne_true
      rw [h.reach_present hname hfits he hnot] at hfind
      cases hfind
      rfl

theorem lookup_of_find {q : Path} {place : Place} (h : fs.find cwd q = .ok place)
    (he : fs.node? place = some e) : fs.lookup cwd q = .ok (place, e) := by
  rw [lookup, h]
  dsimp only [bind, Except.bind]
  rw [he]
  rfl

theorem load_of_find {q : Path} {place : Place} (hq : ¬ q.hasNull) (h : fs.find cwd q = .ok place)
    (he : fs.node? place = some (.file content changedAt)) :
    fs.load cwd q = .ok (content, changedAt) := by
  rw [load, failing_clean hq, lookup_of_find h he]
  rfl

theorem find_of_load {q : Path} (h : fs.load cwd q = .ok (content, changedAt)) : ¬ q.hasNull ∧
    ∃ place, fs.find cwd q = .ok place ∧ fs.node? place = some (.file content changedAt) := by
  have hnull : ¬ q.hasNull := by
    intro hnull
    rw [load, failing.eq_def, if_pos hnull] at h
    cases h
  refine ⟨hnull, ?_⟩
  have hlooked := failing_eq_ok h
  rcases hfind : fs.find cwd q with e | place
  · rw [lookup, hfind] at hlooked
    cases hlooked
  rcases hnode : fs.node? place with _ | e
  · rw [lookup, hfind] at hlooked
    simp only [bind, Except.bind, hnode] at hlooked
    cases hlooked
  rw [lookup_of_find hfind hnode] at hlooked
  cases e with
  | directory | link => cases hlooked
  | file content' t =>
      cases hlooked
      exact ⟨place, rfl, hnode⟩

theorem stat_of_load {q : Path} (h : fs.load cwd q = .ok (content, changedAt)) :
    fs.stat cwd q = .ok (.file content changedAt) := by
  obtain ⟨hnull, place, hfind, hnode⟩ := find_of_load h
  rw [stat, failing_clean hnull, lookup_of_find hfind hnode]
  rfl

end Operations

section Standing

theorem size_toString_le (habs : p.isAbsolute) (name : String) :
    Text.Utf8.size p.toString ≤ Text.Utf8.size (Path.mk p.root (p.parts ++ [name])).toString := by
  have hroot : p.root ≠ .none := bne_iff_ne.1 habs
  have hchild : (Path.mk p.root (p.parts ++ [name])).chars =
      Path.Root.chars p.root ++ Path.joinParts (p.parts ++ [name]) := Path.chars_eq (.inl hroot)
  rw [Text.Utf8.size, Text.Utf8.size, Text.Utf8.ofString, Text.Utf8.ofString, Path.toString,
    Path.toString, String.toList_ofList, String.toList_ofList, Path.chars_eq (.inl hroot), hchild]
  by_cases hparts : p.parts = []
  · rw [hparts, Path.joinParts, List.append_nil, Text.Utf8.encode, Text.Utf8.encode,
      List.flatMap_append, List.length_append]
    exact Nat.le_add_right _ _
  · rw [Path.joinParts_concat hparts, ← List.append_assoc]
    generalize Path.Root.chars p.root ++ Path.joinParts p.parts = front
    rw [Text.Utf8.encode, Text.Utf8.encode, List.flatMap_append, List.length_append]
    exact Nat.le_add_right _ _

theorem houses_of_find (hp : p.IsCanonical)
    (hfind : fs.find cwd ⟨p.root, p.parts ++ [name]⟩ = .ok (p.parts ++ [name])) :
    fs.Houses cwd p p.parts := by
  have hdescends := descends_of_find hfind
  have hturn := hdescends p.parts name (List.prefix_refl _)
  refine ⟨?_, (turn_eq_goto hturn).1⟩
  rw [find_eq_ok, reach] at hfind ⊢
  split at hfind
  · cases hfind
  · rename_i hshort
    rw [if_neg fun hlong => hshort (Nat.le_trans hlong (size_toString_le hp.isAbsolute name)),
      Path.absolute_of_isAbsolute hp.isAbsolute]
    exact walk_of_descends [] (hdescends.front (List.prefix_append _ _))

theorem walk_found_last {n : Nat} {here place : Place} {names : List String}
    (h : walk fs true n here names = .ok (.found place)) :
    ∃ last, walk fs false n here names = .ok (.found last) := by
  induction n, here, names using walk_induct with
  | zero => cases h
  | nil n here => exact ⟨here, rfl⟩
  | cons n here name rest ihrest ihjump =>
      rw [walk_cons] at h ⊢
      cases hturn : fs.turn here name with
      | stop e =>
          rw [hturn] at h
          cases h
      | absent =>
          rw [hturn] at h
          dsimp only at h
          split at h <;> cases h
      | goto next =>
          rw [hturn] at h
          exact ihrest next h
      | link text =>
          rw [hturn] at h
          dsimp only at h ⊢
          rw [if_neg (by simp)] at h
          split
          · exact ⟨_, rfl⟩
          · exact ihjump _ _ h

theorem Houses.ensureDir (h : fs.Houses cwd p directory) (hp : ¬ p.hasNull) :
    fs.ensureDir cwd p = (fs, none) := by
  have hreach : ∃ last, fs.reach cwd p false = .ok (.found last) := by
    have hfind := find_eq_ok.1 h.find
    rw [reach] at hfind ⊢
    split at hfind
    · cases hfind
    · rw [if_neg ‹_›]
      exact walk_found_last hfind
  obtain ⟨last, hlast⟩ := hreach
  have hmake : fs.makeDir cwd p = .error (Errno.exists.failure p) := by
    rw [makeDir, failing_clean hp, hlast]
    rfl
  have hdir : fs.isDir cwd p = .ok true := by
    rw [isDir, test, if_neg hp, lookup_of_find h.find h.node]
    rfl
  rw [FileSystem.ensureDir, makeDirs, hmake]
  dsimp only
  rw [if_neg (by simp [Errno.failure, Errno.cause]), unlessDir, if_pos (isSystem_failure _ _), hdir]

end Standing

end MediaCatalog.FileSystem
