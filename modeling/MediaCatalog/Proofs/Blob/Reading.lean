import Mathlib.Logic.Relation
import MediaCatalog.Blob.Store
import MediaCatalog.Metadata.Reading
import MediaCatalog.Proofs.Blob.Storing
import MediaCatalog.Proofs.FileSystem.Dangling
import MediaCatalog.Proofs.World

namespace MediaCatalog

open FileSystem World

namespace Locator

variable {name name' : String}

theorem toList_ofBlob (name : String) : (ofBlob name).toList = blobScheme ++ name.toList := by
  rw [ofBlob, String.toList_ofList]

theorem isBlob_ofBlob (name : String) : isBlob (ofBlob name) = true := by
  rw [isBlob, toList_ofBlob, List.isPrefixOf_iff_prefix]
  exact List.prefix_append _ _

theorem blobName_ofBlob (name : String) : blobName (ofBlob name) = name := by
  rw [blobName, toList_ofBlob]
  exact String.ofList_toList

theorem ofBlob_injective (h : ofBlob name = ofBlob name') : name = name' := by
  rw [← blobName_ofBlob name, h, blobName_ofBlob]

theorem toPath_ofBlob (dir : Path) (name : String) :
    toPath (some dir) (ofBlob name) = .ok (dir / name) := by
  rw [toPath, if_pos (isBlob_ofBlob name), blobName_ofBlob]

end Locator

namespace Blob

variable {fs : FileSystem} {cwd dir : Path} {directory : Place} {name : String} {content : Content}
  {t : Int} {r : Run World}

namespace Directory

def persisted (d : Directory) (faults : Stage → Option Fault) (data : List UInt8) (mime : String)
    (w : World) : FileSystem × Storing :=
  Storing.run w.cwd w.clock faults Storing.stages w.files
    ⟨d.path, nameFor (nextWord w) mime, data, .makeDirectory⟩

theorem exec_persistWith (d : Directory) (faults : Stage → Option Fault) (data : List UInt8)
    (mime : String) (r : Run World) :
    ((d.persistWith faults data mime).exec r).1 =
        (match (d.persisted faults data mime r.state).2.stage with
          | .failed f => .error f
          | _ => .ok (Locator.ofBlob (nameFor (nextWord r.state) mime))) ∧
      ((d.persistWith faults data mime).exec r).2.state =
        { r.state with
          files := (d.persisted faults data mime r.state).1
          clock := r.state.clock + 1
          issued := r.state.issued + 1 } := by
  rw [persistWith, Act.exec_bind_ok (exec_freshName r), Act.exec_bind_ok (Act.exec_getState _),
    persisted]
  dsimp only
  generalize Storing.run r.state.cwd r.state.clock faults Storing.stages r.state.files _ = out
  rw [Act.exec_bind_ok (Act.exec_setState _ _)]
  cases out.2.stage with
  | failed f => exact ⟨rfl, rfl⟩
  | makeDirectory | writePart | publish | cleanUp | stored => exact ⟨rfl, rfl⟩

end Directory

section Readers

def canonical (directory : Place) (name : String) : Path := ⟨.slash, directory ++ [name]⟩

variable (hproper : fs.IsProper) (hclean : IsClean cwd dir) (h : fs.Houses cwd dir directory)
  (hname : IsPlain name) (hfits : Fits dir name)
  (he : fs.node? (directory ++ [name]) = some (.file content t))
include hproper hclean h hname hfits he

theorem resolve_blob : fs.resolve cwd (dir / name) = .ok (canonical directory name) :=
  hproper.resolve_eq (hclean.div hname) (h.find_file hname hfits he)

theorem relativeUnder_blob :
    fs.relativeUnder cwd dir (dir / name) = .ok (some ⟨.none, [name]⟩) := by
  rw [relativeUnder_eq (resolve_blob hproper hclean h hname hfits he)
    (hproper.resolve_eq hclean h.find), canonical, Path.relativeTo?, if_pos rfl,
    Path.below?_eq_some.2 rfl]
  rfl

omit hproper hclean in
theorem lookup_canonical : fs.lookup cwd (canonical directory name) =
    if maxPath ≤ Text.Utf8.size (canonical directory name).toString then .error .nameTooLong
    else .ok (directory ++ [name], .file content t) := by
  have hreach := reach_canonical true (h.find_file hname hfits he)
  change fs.reach cwd (canonical directory name) true = _ at hreach
  split
  · rw [if_pos ‹_›] at hreach
    rw [lookup, find, hreach]
    rfl
  · rw [if_neg ‹_›] at hreach
    exact lookup_of_find (find_eq_ok.2 hreach) he

theorem canonical_not_null : ¬ (canonical directory name).hasNull :=
  (checkedForm_eq_ok (checkedForm_of_find (h.find_file hname hfits he)
    (resolve_blob hproper hclean h hname hfits he))).2

theorem exec_sizeOf (hfiles : r.state.files = fs) (hcwd : r.state.cwd = cwd) :
    (Directory.sizeOf ⟨dir⟩ (Locator.ofBlob name)).exec r =
      (if maxPath ≤ Text.Utf8.size (canonical directory name).toString then
        .error (Errno.nameTooLong.failure (canonical directory name))
      else .ok (some (content.size : Int)), r) := by
  subst hfiles hcwd
  have hnull := canonical_not_null hproper hclean h hname hfits he
  have hlookup := lookup_canonical h hname hfits he
  have hpath : (Directory.pathFor ⟨dir⟩ name).exec r = (.ok (some (canonical directory name)), r) := by
    rw [Directory.pathFor, if_neg hname.isComponent.ne_empty,
      Act.exec_bind_ok (by rw [exec_relativeUnder, relativeUnder_blob hproper hclean h hname hfits he]),
      Act.exec_bind_ok (by rw [exec_resolve, resolve_blob hproper hclean h hname hfits he])]
    rfl
  rw [Directory.sizeOf, Locator.blobName_ofBlob, Act.exec_bind_ok hpath]
  dsimp only
  split
  · rw [if_pos ‹_›] at hlookup
    have htest : r.state.files.isFile r.state.cwd (canonical directory name) =
        .error (Errno.nameTooLong.failure (canonical directory name)) := by
      rw [FileSystem.isFile, test, if_neg hnull, hlookup]
      rfl
    exact Act.exec_bind_error (by rw [exec_isFile, htest]) _
  · rw [if_neg ‹_›] at hlookup
    have htest : r.state.files.isFile r.state.cwd (canonical directory name) = .ok true := by
      rw [FileSystem.isFile, test, if_neg hnull, hlookup]
      rfl
    have hstat : r.state.files.stat r.state.cwd (canonical directory name) =
        .ok (.file content t) := by
      rw [FileSystem.stat, failing_clean hnull, hlookup]
      rfl
    rw [Act.exec_bind_ok (by rw [exec_isFile, htest]), if_pos rfl,
      Act.exec_bind_ok (by rw [exec_stat, hstat])]
    rfl

omit hproper in
theorem load_blob : fs.load cwd (dir / name) = .ok (content, t) :=
  load_of_find (hclean.div hname).hasNull (h.find_file hname hfits he) he

omit hproper in
theorem exec_resourceSize (hfiles : r.state.files = fs) (hcwd : r.state.cwd = cwd) :
    ((Metadata.fileProbe (some dir)).resourceSize (Locator.ofBlob name)).exec r =
      (.ok (content.size : Int), r) := by
  subst hfiles hcwd
  have hload : (load (dir / name)).exec r = (.ok content.toBytes, r) := by
    rw [exec_load, load_blob hclean h hname hfits he]
    rfl
  change (Act.exec (Act.ofExcept (Locator.toPath (some dir) (Locator.ofBlob name)) >>= _) r) = _
  rw [Locator.toPath_ofBlob, Act.exec_bind_ok (Act.exec_ofExcept _ r), Act.exec_bind_ok hload]
  rfl

end Readers

namespace Requests

variable {ι : Type} {q : Requests ι} {i : ι}

def locator (q : Requests ι) (i : ι) : String := Locator.ofBlob (q.name i)

/-- What everybody who asks for a stored blob gets to know. -/
structure ReadsBack (q : Requests ι) (cwd : Path) (fs : FileSystem) (i : ι) : Prop where
  isLocal : ∀ r, ((Directory.authority ⟨q.dir⟩).isLocal (q.locator i)).exec r = (.ok true, r)
  unique : ∀ j, q.locator j = q.locator i → j = i
  path : Locator.toPath (some q.dir) (q.locator i) = .ok (q.dir / q.name i)
  content : ∃ t, fs.load cwd (q.dir / q.name i) = .ok (.bytes (q.data i), t)
  resourceSize : ∀ r : Run World, r.state.files = fs → r.state.cwd = cwd →
    ((Metadata.fileProbe (some q.dir)).resourceSize (q.locator i)).exec r =
      (.ok ((q.data i).length : Int), r)
  sizeOf : ∃ directory, fs.find cwd q.dir = .ok directory ∧
    ∀ r : Run World, r.state.files = fs → r.state.cwd = cwd →
      (Directory.sizeOf ⟨q.dir⟩ (q.locator i)).exec r =
        (if maxPath ≤ Text.Utf8.size (canonical directory (q.name i)).toString then
          .error (Errno.nameTooLong.failure (canonical directory (q.name i)))
        else .ok (some ((q.data i).length : Int)), r)

theorem readsBack {fs₀ : FileSystem} (hproper : fs.IsProper) (hclean : IsClean cwd q.dir)
    (hq : q.IsFresh cwd fs₀) (h : fs.Houses cwd q.dir directory) (hfits : Fits q.dir (q.part i))
    (he : fs.node? (directory ++ [q.name i]) = some (.file (.bytes (q.data i)) t)) :
    q.ReadsBack cwd fs i := by
  have hname := hq.isPlain_name i
  have hfits' : Fits q.dir (q.name i) := fits_of_partName (hq.isWord i) hfits
  refine ⟨fun r => ?_, fun j hj => ?_, ?_, ?_, fun r hfiles hcwd => ?_, directory, h.find,
    fun r hfiles hcwd => ?_⟩
  · have hlocal : (Directory.authority ⟨q.dir⟩).isLocal (q.locator i) =
        pure (Locator.isBlob (q.locator i)) := rfl
    rw [hlocal, Act.exec_pure, locator, Locator.isBlob_ofBlob]
  · exact hq.name_inj (Locator.ofBlob_injective hj)
  · exact Locator.toPath_ofBlob q.dir (q.name i)
  · exact ⟨t, load_blob hclean h hname hfits' he⟩
  · rw [locator, exec_resourceSize hclean h hname hfits' he hfiles hcwd]
    rfl
  · rw [locator, exec_sizeOf hproper hclean h hname hfits' he hfiles hcwd]
    rfl

end Requests

namespace Store

open Requests

variable {ι : Type} [DecidableEq ι] {q : Requests ι} {fs₀ : FileSystem} {st st' : Store ι} {i : ι}

def opened (fs : FileSystem) : Store ι := ⟨fs, fun _ => .makeDirectory⟩

section Runs

variable (hclean : IsClean cwd q.dir) (hq : q.IsFresh cwd fs₀)

omit [DecidableEq ι] in
theorem sound_opened (q : Requests ι) (cwd : Path) (fs₀ : FileSystem) :
    (opened fs₀).Sound q cwd fs₀ where
  grows := .refl _ fs₀
  fares i := by
    refine ⟨fun hg => hg.elim, fun hg => ?_, fun hg => ?_, fun f hg => ?_⟩
    · cases hg
    · cases hg
    · rcases hg with hg | hg <;> cases hg

include hclean hq

theorem Sound.moves (h : st.Sound q cwd fs₀) (hmoves : st.Moves q cwd st') :
    st'.Sound q cwd fs₀ := by
  cases hmoves with
  | step i now fault hfault =>
      exact h.after hq (effect_step (h.hasLeft hq i) (h.fares i) hq hclean now hfault)

theorem sound_of_runs (hruns : Relation.ReflTransGen (Moves q cwd) (opened fs₀) st) :
    st.Sound q cwd fs₀ := by
  induction hruns with
  | refl => exact sound_opened q cwd fs₀
  | tail _ hmoves ih => exact ih.moves hclean hq hmoves

end Runs

def IsOver : Stage → Prop
  | .stored | .failed _ => True
  | _ => False

omit [DecidableEq ι] in
theorem Sound.part_eq_none (h : st.Sound q cwd fs₀) (hq : q.IsFresh cwd fs₀)
    (hover : IsOver (st.stages i)) (place : Place) : st.files.node? (place ++ [q.part i]) = none := by
  refine (h.hasLeft hq i).node?_eq_none ⟨place, .inr rfl⟩ fun directory e hleaves => ?_
  generalize hplace : place ++ [q.part i] = there at hleaves
  generalize st.stages i = g at hover hleaves
  cases hleaves with
  | whole | rest => exact hover
  | blob => exact hq.name_ne_part i i (last_eq hplace).symm

theorem Moves.stored (h : st.Moves q cwd st') (hg : st.stages i = .stored) :
    st'.stages i = .stored := by
  cases h with
  | step j now fault hfault =>
      by_cases hj : i = j
      · subst hj
        refine (stages_after_self ..).trans ?_
        cases fault with
        | none => simp only [Storing.step, Storing.operate, stage_call, hg]
        | some fault =>
            obtain ⟨-, hstage⟩ := hfault fault rfl
            rw [hg] at hstage
            rcases hstage with hstage | hstage | hstage <;> cases hstage
      · exact (stages_after_of_ne st _ _ hj).trans hg

theorem stored_of_runs (hruns : Relation.ReflTransGen (Moves q cwd) st st')
    (hg : st.stages i = .stored) : st'.stages i = .stored := by
  induction hruns with
  | refl => exact hg
  | tail _ hmoves ih => exact hmoves.stored ih

omit [DecidableEq ι] in
theorem Sound.readsBack (h : st.Sound q cwd fs₀) (hproper : fs₀.IsProper)
    (hclean : IsClean cwd q.dir) (hq : q.IsFresh cwd fs₀) (hg : st.stages i = .stored) :
    q.ReadsBack cwd st.files i := by
  obtain ⟨directory, t, hhouses, he⟩ := (h.fares i).blob hg
  obtain ⟨_, -, hfits, -⟩ := h.hasLeft hq i _ _ ⟨directory, .inl rfl⟩ he
  exact Requests.readsBack (h.grows.isProper hproper) hclean hq hhouses hfits he

section Single

def rank : Stage → Nat
  | .makeDirectory => 4
  | .writePart => 3
  | .publish => 2
  | .cleanUp _ => 1
  | .stored | .failed _ => 0

theorem rank_eq_zero {g : Stage} : rank g = 0 ↔ IsOver g := by
  cases g <;> simp [rank, IsOver]

omit [DecidableEq ι] in
theorem isOver_call {g : Stage} : (q.call i g).isOver = true ↔ IsOver g := by
  cases g <;> simp [Storing.isOver, call, IsOver]

omit [DecidableEq ι] in
theorem rank_of_effect {fs' : FileSystem} {g g' : Stage} (h : q.Effect cwd i fs g fs' g') :
    rank g' ≤ rank g - 1 := by
  cases h <;> simp [rank]

omit [DecidableEq ι] in
theorem step_call (q : Requests ι) (i : ι) (g : Stage) (cwd : Path) (now : Int) (fs : FileSystem)
    (fault : Option Fault) : ((q.call i g).step cwd now fs fault).2 =
      q.call i ((q.call i g).step cwd now fs fault).2.stage := by
  cases fault with
  | some fault => rfl
  | none =>
      simp only [Storing.step]
      rcases (q.call i g).operate cwd now fs with ⟨fs', f | g'⟩ <;> rfl

theorem after_self (st : Store ι) (i : ι) : st.after i st.files (st.stages i) = st :=
  congrArg (Store.mk st.files) (Function.update_eq_self (β := fun _ => Stage) i st.stages)

theorem after_after (st : Store ι) (i : ι) (fs' fs'' : FileSystem) (g' g'' : Stage) :
    (st.after i fs' g').after i fs'' g'' = st.after i fs'' g'' :=
  congrArg (Store.mk fs'') (Function.update_idem (β := fun _ => Stage) g' g'' st.stages)

omit [DecidableEq ι] in
theorem run_call {now : Int} {faults : Stage → Option Fault} {g : Stage} (hover : ¬ IsOver g) (n : Nat)
    (fs : FileSystem) : Storing.run cwd now faults (n + 1) fs (q.call i g) =
      Storing.run cwd now faults n ((q.call i g).step cwd now fs (faults g)).1
        (q.call i ((q.call i g).step cwd now fs (faults g)).2.stage) := by
  rw [Storing.run, if_neg (mt isOver_call.1 hover), stage_call, ← step_call]

theorem undisturbed (g : Stage) (e : Fault) (h : (none : Option Fault) = some e) :
    IsAdmissible g e := by
  cases h

theorem runs_of_run (now : Int) {faults : Stage → Option Fault}
    (hfaults : ∀ g e, faults g = some e → IsAdmissible g e) (hclean : IsClean cwd q.dir)
    (hq : q.IsFresh cwd fs₀) (n : Nat) (h : st.Sound q cwd fs₀) (hrank : rank (st.stages i) ≤ n) :
    ∃ fs' g', Storing.run cwd now faults n st.files (q.call i (st.stages i)) =
        (fs', q.call i g') ∧ IsOver g' ∧
      Relation.ReflTransGen (Moves q cwd) st (st.after i fs' g') := by
  have hstay : Relation.ReflTransGen (Moves q cwd) st (st.after i st.files (st.stages i)) := by
    rw [after_self]
  induction n generalizing st with
  | zero => exact ⟨_, _, rfl, rank_eq_zero.1 (Nat.le_zero.1 hrank), hstay⟩
  | succ n ih =>
      by_cases hover : IsOver (st.stages i)
      · refine ⟨_, _, ?_, hover, hstay⟩
        rw [Storing.run, if_pos (isOver_call.2 hover)]
      rw [run_call hover]
      generalize hout : (q.call i (st.stages i)).step cwd now st.files (faults (st.stages i)) = out
      have heffect := effect_step (h.hasLeft hq i) (h.fares i) hq hclean now
        (hfaults (st.stages i))
      have hmoves : Moves q cwd st ⟨_, _⟩ :=
        .step i now (faults (st.stages i)) (hfaults (st.stages i))
      rw [hout] at heffect hmoves
      have hnext : rank ((st.after i out.1 out.2.stage).stages i) ≤ n := by
        have hless := rank_of_effect heffect
        rw [stages_after_self]
        omega
      -- the rest of the run starts from the store after this operation, not from `st`
      obtain ⟨fs', g', hrun, hend, hruns⟩ := ih (h.after hq heffect) hnext (by rw [after_self])
      rw [stages_after_self] at hrun
      rw [after_after] at hruns
      exact ⟨fs', g', hrun, hend, .head hmoves hruns⟩

theorem runs_of_persist {faults : Stage → Option Fault} {w : World}
    (hfaults : ∀ g e, faults g = some e → IsAdmissible g e) (hclean : IsClean w.cwd q.dir)
    (hq : q.IsFresh w.cwd fs₀) (h : st.Sound q w.cwd fs₀) (hfiles : w.files = st.files)
    (hg : st.stages i = .makeDirectory) (hword : q.word i = nextWord w) :
    ∃ fs' g', (Directory.mk q.dir).persisted faults (q.data i) (q.mime i) w = (fs', q.call i g') ∧
      IsOver g' ∧ Relation.ReflTransGen (Moves q w.cwd) st (st.after i fs' g') := by
  obtain ⟨fs', g', hrun, hover, hruns⟩ := runs_of_run w.clock hfaults hclean hq Storing.stages h
    (i := i) (by rw [hg]; exact Nat.le_refl 4)
  rw [hg, ← hfiles] at hrun
  refine ⟨fs', g', ?_, hover, hruns⟩
  rw [Directory.persisted, ← hword]
  exact hrun

def requestOf (d : Directory) (data : List UInt8) (mime : String) (w : World) : Requests Unit :=
  ⟨d.path, fun _ => nextWord w, fun _ => mime, fun _ => data⟩

def MayAdd (d : Directory) (w : World) (mime : String) (fs : FileSystem) (place : Place)
    (e : Node) : Prop :=
  IsMadeFor w.cwd d.path place e ∨ ∃ directory content t, fs.Houses w.cwd d.path directory ∧
    place = directory ++ [nameFor (nextWord w) mime] ∧ e = .file content t

theorem grows_persisted {d : Directory} {w : World} {mime : String} (data : List UInt8)
    (hclean : IsClean w.cwd d.path)
    (hunused : ∀ place, w.files.node? (place ++ [nameFor (nextWord w) mime]) = none ∧
      w.files.node? (place ++ [partName (nameFor (nextWord w) mime)]) = none)
    (hapart : nameFor (nextWord w) mime ∉ (d.path.absolute w.cwd).parts ∧
      partName (nameFor (nextWord w) mime) ∉ (d.path.absolute w.cwd).parts) :
    Grows (MayAdd d w mime (d.persisted (fun _ => none) data mime w).1) w.files
      (d.persisted (fun _ => none) data mime w).1 := by
  have hq : (requestOf d data mime w).IsFresh w.cwd w.files :=
    ⟨fun _ => isWord_fresh (w.issued + 1), fun _ _ _ => rfl, fun _ => hunused, fun _ => hapart⟩
  obtain ⟨fs', g', hout, hover, hruns⟩ := runs_of_persist undisturbed (i := ()) hclean hq
    (sound_opened (requestOf d data mime w) w.cwd w.files) rfl rfl rfl
  have hfiles : (d.persisted (fun _ => none) data mime w).1 = fs' := congrArg Prod.fst hout
  have hgrows := (sound_of_runs hclean hq hruns).grows
  rw [hfiles]
  refine hgrows.weaken fun place e _ hallows => ?_
  rcases hallows with hmade | ⟨directory, i, hhouses, -, hleaves⟩
  · exact .inl hmade
  · rw [stages_after_self] at hleaves
    refine .inr ⟨directory, ?_⟩
    cases hleaves with
    | whole | rest => exact hover.elim
    | blob => exact ⟨_, _, hhouses, rfl, rfl⟩

section Undisturbed

variable (now : Int) {fs : FileSystem} {g g' : Stage} (hclean : IsClean cwd q.dir)
  (hq : q.IsFresh cwd fs₀)

omit [DecidableEq ι] in
theorem stage_makeDirectory (hdir : (fs.ensureDir cwd q.dir).2 = none) :
    ((q.call i .makeDirectory).step cwd now fs none).2.stage = .writePart := by
  rcases hmade : fs.ensureDir cwd q.dir with ⟨fs', f | f⟩
  · simp only [Storing.step, Storing.operate, stage_call, dir_call, hmade]
  · rw [hmade] at hdir
    cases hdir

include hclean hq

omit [DecidableEq ι] in
theorem stage_writePart (hleft : HasLeft q cwd fs i .writePart) (hfares : Fares q cwd fs i .writePart)
    (hfits : Fits q.dir (q.part i)) :
    ((q.call i .writePart).step cwd now fs none).2.stage = .publish := by
  obtain ⟨directory, hhouses⟩ := hfares.houses trivial
  have hnone : fs.node? (directory ++ [q.part i]) = none :=
    hleft.node?_eq_none ⟨directory, .inr rfl⟩ (by nofun)
  simp only [Storing.step, Storing.operate, stage_call, part_call, data_call,
    hhouses.store_absent hclean (hq.isPlain_part i) hfits hnone]

omit [DecidableEq ι] in
theorem stage_publish (hleft : HasLeft q cwd fs i .publish) (hfares : Fares q cwd fs i .publish) :
    ((q.call i .publish).step cwd now fs none).2.stage = .stored := by
  obtain ⟨_, _, -, -, hrename⟩ := rename_part hleft hfares hq hclean rfl
  simp only [Storing.step, Storing.operate, stage_call, part_call, target_call, hrename]

theorem Sound.run_step (h : st.Sound q cwd fs₀) (hg : st.stages i = g) (hover : ¬ IsOver g)
    (hstage : ((q.call i g).step cwd now st.files none).2.stage = g') :
    ∃ st' : Store ι, st'.Sound q cwd fs₀ ∧ st'.stages i = g' ∧ ∀ n,
      Storing.run cwd now (fun _ => none) (n + 1) st.files (q.call i g) =
        Storing.run cwd now (fun _ => none) n st'.files (q.call i g') := by
  subst hg hstage
  have heffect := effect_step (h.hasLeft hq i) (h.fares i) hq hclean now
    (undisturbed (st.stages i))
  exact ⟨_, h.after hq heffect, stages_after_self .., fun n => run_call hover n st.files⟩

theorem stored_of_run (h : st.Sound q cwd fs₀) (hg : st.stages i = .makeDirectory)
    (hdir : (st.files.ensureDir cwd q.dir).2 = none) (hfits : Fits q.dir (q.part i)) :
    (Storing.run cwd now (fun _ => none) Storing.stages st.files
      (q.call i (st.stages i))).2.stage = .stored := by
  obtain ⟨st₁, h₁, hg₁, hrun₁⟩ := h.run_step now hclean hq hg id (stage_makeDirectory now hdir)
  have hstage₁ := stage_writePart now hclean hq (hg₁ ▸ h₁.hasLeft hq i) (hg₁ ▸ h₁.fares i)
    hfits
  obtain ⟨st₂, h₂, hg₂, hrun₂⟩ := h₁.run_step now hclean hq hg₁ id hstage₁
  have hstage₂ := stage_publish now hclean hq (hg₂ ▸ h₂.hasLeft hq i) (hg₂ ▸ h₂.fares i)
  obtain ⟨st₃, -, -, hrun₃⟩ := h₂.run_step now hclean hq hg₂ id hstage₂
  rw [hg, Storing.stages, hrun₁, hrun₂, hrun₃]
  rfl

end Undisturbed

end Single

/-- Whatever happens in which order: at every moment all files of the start are as they were, and
every other one is the temporary file of a call that is not over, or the whole blob of one that has
stored it. Nothing is left of a call that has failed, and the system is to blame for it. What a call
has stored is read back under its own locator from then on; only the size is not told when the
canonical path of the blob is too long for a path. -/
theorem runs_sound (hproper : fs₀.IsProper) (hclean : IsClean cwd q.dir) (hq : q.IsFresh cwd fs₀)
    (hruns : Relation.ReflTransGen (Moves q cwd) (opened fs₀) st) :
    (∀ place e, fs₀.node? place = some e → st.files.node? place = some e) ∧
    (∀ place e, st.files.node? place = some e → fs₀.node? place = none → e = .directory ∨
      ∃ directory i, st.files.find cwd q.dir = .ok directory ∧
        (place = directory ++ [q.part i] ∧ ¬ IsOver (st.stages i) ∨
          place = directory ++ [q.name i] ∧ st.stages i = .stored ∧
            ∃ t, e = .file (.bytes (q.data i)) t)) ∧
    ∀ i, (IsOver (st.stages i) → ∀ place, st.files.node? (place ++ [q.part i]) = none) ∧
      (∀ f, st.stages i = .failed f →
        f.isSystem ∧ ∀ place, st.files.node? (place ++ [q.name i]) = none) ∧
      (st.stages i = .stored → ∀ st', Relation.ReflTransGen (Moves q cwd) st st' →
        q.ReadsBack cwd st'.files i) := by
  have h := sound_of_runs hclean hq hruns
  refine ⟨h.grows.retains, fun place e he hnew => ?_, fun i => ⟨h.part_eq_none hq, fun f hf => ?_,
    fun hstored st' hruns' => ?_⟩⟩
  · rcases (h.grows.introduces place e he hnew).1 with ⟨hdir, -⟩ | ⟨directory, i, hhouses, -, hleaves⟩
    · exact .inl hdir
    · refine .inr ⟨directory, i, hhouses.find, ?_⟩
      generalize hg : st.stages i = g at hleaves
      cases hleaves with
      | whole | rest => exact .inl ⟨rfl, id⟩
      | blob => exact .inr ⟨rfl, rfl, _, rfl⟩
  · refine ⟨(h.fares i).isSystem f (.inr hf), fun place => ?_⟩
    refine (h.hasLeft hq i).node?_eq_none ⟨place, .inl rfl⟩ fun directory e hleaves => ?_
    rw [hf] at hleaves
    cases hleaves
  · exact (sound_of_runs hclean hq (hruns.trans hruns')).readsBack hproper hclean hq
      (stored_of_runs hruns' hstored)

def sampleRequests : Requests Unit :=
  ⟨⟨.slash, ["b"]⟩, fun _ => "0", fun _ => "image/png", fun _ => [7]⟩

theorem runs_sound_sample :
    ∃ st : Store Unit, Relation.ReflTransGen (Moves sampleRequests ⟨.slash, []⟩) (opened ⟨[]⟩) st ∧
      st.stages () = .stored ∧ sampleRequests.ReadsBack ⟨.slash, []⟩ st.files () := by
  have hproper : (⟨[]⟩ : FileSystem).IsProper := by
    refine ⟨fun place e hplace he => ?_, fun place text he => ?_⟩
    · rw [node?.eq_2 _ _ hplace] at he
      cases he
    · cases place <;> cases he
  have hclean : IsClean ⟨.slash, []⟩ sampleRequests.dir := by
    rw [IsClean]
    decide
  have hq : sampleRequests.IsFresh ⟨.slash, []⟩ ⟨[]⟩ := by
    have hword : IsWord "0" := isWord_of_all (by decide) (by decide)
    refine ⟨fun _ => hword, fun _ _ _ => rfl, fun _ place => ?_, fun i => ?_⟩
    · rw [node?.eq_2 _ _ (by simp), node?.eq_2 _ _ (by simp)]
      exact ⟨rfl, rfl⟩
    · cases i
      decide
  obtain ⟨fs', g', hrun, -, hruns⟩ := runs_of_run 0 undisturbed (i := ())
    hclean hq 4 (sound_opened sampleRequests ⟨.slash, []⟩ ⟨[]⟩)
    (Nat.le_refl 4)
  have hg : Stage.stored = g' := congrArg (fun out => out.2.stage) hrun
  subst hg
  have hstored := stages_after_self (opened ⟨[]⟩) () fs' .stored
  exact ⟨_, hruns, hstored, ((runs_sound hproper hclean hq hruns).2.2 ()).2.2 hstored _ .refl⟩

section Far

def nested (name : String) (n : Nat) : FileSystem :=
  ⟨(List.range n).map fun k => (List.replicate (k + 1) name, .directory)⟩

variable {n k : Nat} {place : Place} {e : Node}

theorem node?_nested (hplace : place ≠ []) : (nested name n).node? place =
    ((List.range n).find? (fun k => List.replicate (k + 1) name = place)).map
      (fun _ => .directory) := by
  rw [node?.eq_2 _ _ hplace, nested, List.find?_map, Option.map_map]
  rfl

theorem node?_nested_replicate (hk : k ≤ n) :
    (nested name n).node? (List.replicate k name) = some .directory := by
  cases k with
  | zero => rfl
  | succ k =>
      rw [node?_nested (by simp)]
      have hsome : ((List.range n).find? fun l =>
          List.replicate (l + 1) name = List.replicate (k + 1) name).isSome :=
        List.find?_isSome.2 ⟨k, List.mem_range.2 hk, decide_eq_true rfl⟩
      obtain ⟨k', hk'⟩ := Option.isSome_iff_exists.1 hsome
      rw [hk']
      rfl

theorem eq_of_node?_nested (h : (nested name n).node? place = some e) :
    e = .directory ∧ ∃ k ≤ n, place = List.replicate k name := by
  by_cases hplace : place = []
  · subst hplace
    cases h
    exact ⟨rfl, 0, Nat.zero_le n, rfl⟩
  · rw [node?_nested hplace] at h
    obtain ⟨k, hk, rfl⟩ := Option.map_eq_some_iff.1 h
    have heq : List.replicate (k + 1) name = place := by simpa using List.find?_some hk
    exact ⟨rfl, k + 1, List.mem_range.1 (List.mem_of_find?_eq_some hk), heq.symm⟩

theorem isProper_nested : (nested name n).IsProper where
  parent place e _ he := by
    obtain ⟨-, k, hk, rfl⟩ := eq_of_node?_nested he
    rw [List.dropLast_replicate]
    exact node?_nested_replicate (Nat.le_trans (Nat.sub_le k 1) hk)
  text place text he := by cases (eq_of_node?_nested he).1

theorem descends_nested (hname : IsOrdinary name) (hsize : ¬ maxName < Text.Utf8.size name) :
    (nested name n).Descends (List.replicate n name) := by
  intro here c hprefix
  obtain ⟨hlength, heq⟩ := List.prefix_replicate_iff.1 hprefix
  rw [List.length_append, List.length_singleton] at hlength heq
  have hc : c = name := List.eq_of_mem_replicate (heq ▸ List.mem_concat_self)
  have hhere : here = List.replicate here.length name :=
    List.eq_replicate_iff.2 ⟨rfl, fun b hb => List.eq_of_mem_replicate
      (heq ▸ List.mem_append_left [c] hb)⟩
  subst hc
  have hdir : (nested c n).node? here = some .directory := by
    rw [hhere]
    exact node?_nested_replicate (by omega)
  rw [turn_of_isOrdinary hdir hname hsize, heq, node?_nested_replicate hlength]

theorem length_encode_joinParts (name : String) (n : Nat) :
    (Text.Utf8.encode (Path.joinParts (List.replicate (n + 1) name))).length + 1 =
      (n + 1) * (Text.Utf8.size name + 1) := by
  induction n with
  | zero =>
      rw [Nat.zero_add, Nat.one_mul]
      rfl
  | succ n ih =>
      have hjoin : Path.joinParts (List.replicate (n + 1 + 1) name) =
          name.toList ++ '/' :: Path.joinParts (List.replicate (n + 1) name) := rfl
      have hslash : (Text.Utf8.encodeChar '/').length = 1 := rfl
      rw [hjoin, Text.Utf8.encode, List.flatMap_append, List.length_append, List.flatMap_cons,
        List.length_append, hslash, Nat.succ_mul, ← ih, size_toList]
      simp only [Text.Utf8.encode]
      omega

theorem size_nested (name name' : String) (n : Nat) :
    Text.Utf8.size (canonical (List.replicate (n + 1) name) name').toString =
      (n + 1) * (Text.Utf8.size name + 1) + (1 + Text.Utf8.size name') := by
  have hfront := length_encode_joinParts name n
  have hslash : (Text.Utf8.encodeChar '/').length = 1 := rfl
  rw [← hfront, canonical, size_toList, Path.toString, String.toList_ofList,
    Path.chars_eq (.inr (by simp)), Path.joinParts_concat (by simp), Path.Root.chars,
    List.singleton_append, size_toList]
  simp only [Text.Utf8.encode, List.flatMap_cons, List.flatMap_append, List.length_append, hslash]
  omega

def letters (n : Nat) : String := String.ofList (List.replicate n 'd')

theorem mem_letters {c : Char} (h : c ∈ (letters n).toList) : c = 'd' := by
  rw [letters, String.toList_ofList] at h
  exact List.eq_of_mem_replicate h

theorem length_letters (n : Nat) : (letters n).toList.length = n := by
  rw [letters, String.toList_ofList, List.length_replicate]

theorem size_letters (n : Nat) : Text.Utf8.size (letters n) = n := by
  have hbyte : (Text.Utf8.encodeChar 'd').length = 1 := rfl
  rw [size_toList, letters, String.toList_ofList, Text.Utf8.encode, List.flatMap_replicate,
    List.length_flatten, List.map_replicate, List.sum_replicate_nat, hbyte, Nat.mul_one]

theorem isPlain_letters (h : 2 < n) : IsPlain (letters n) := by
  have hne {s : List Char} (hs : s.length ≤ 2) : (letters n).toList ≠ s := by
    rintro rfl
    rw [length_letters] at hs
    omega
  refine isPlain_of_chars (fun c hc => ?_) (hne (by decide)) (hne (by decide)) (hne (by decide))
  obtain rfl := mem_letters hc
  exact ⟨by decide, by decide⟩

/-- A blob for a directory of the longest name there may be, in fifteen others. -/
def farRequests : Requests Unit :=
  ⟨⟨.none, [letters maxName]⟩, fun _ => "0", fun _ => "image/png", fun _ => [7]⟩

def farHome : Path := ⟨.slash, List.replicate 15 (letters maxName)⟩

theorem farName : farRequests.name () = "0.png" := by
  rw [Requests.name]
  decide

theorem farPart : farRequests.part () = ".0.png.part" := by
  rw [Requests.part, farName]
  decide

theorem isClean_far : IsClean farHome farRequests.dir := by
  intro hnull
  obtain ⟨c, hc, hc'⟩ := List.any_eq_true.1 hnull
  have hc : c = (letters maxName) := by
    rcases List.mem_append.1 hc with hc | hc
    · exact List.eq_of_mem_replicate hc
    · exact List.mem_singleton.1 hc
  exact (isPlain_letters (n := maxName) (by decide)).clean (hc ▸ hc')

theorem isFresh_far : farRequests.IsFresh farHome (nested (letters maxName) 15) := by
  have hne (name : String) (h : '0' ∈ name.toList) : letters maxName ≠ name := by
    rintro rfl
    cases mem_letters h
  have hnone (name : String) (h : '0' ∈ name.toList) (place : Place) :
      (nested (letters maxName) 15).node? (place ++ [name]) = none := by
    cases he : (nested (letters maxName) 15).node? (place ++ [name]) with
    | none => rfl
    | some e =>
        obtain ⟨-, k, -, heq⟩ := eq_of_node?_nested he
        have hmem : name ∈ List.replicate k (letters maxName) := heq ▸ List.mem_concat_self
        exact absurd (List.eq_of_mem_replicate hmem).symm (hne name h)
  have hapart (name : String) (h : '0' ∈ name.toList) :
      name ∉ (farRequests.dir.absolute farHome).parts := by
    intro hmem
    rcases List.mem_append.1 hmem with hmem | hmem
    · exact hne name h (List.eq_of_mem_replicate hmem).symm
    · exact hne name h (List.mem_singleton.1 hmem).symm
  have hword : IsWord "0" := isWord_of_all (by decide) (by decide)
  refine ⟨fun _ => hword, fun _ _ _ => rfl, fun _ place => ?_, fun _ => ?_⟩
  · rw [farName, farPart]
    exact ⟨hnone _ (by decide) place, hnone _ (by decide) place⟩
  · rw [farName, farPart]
    exact ⟨hapart _ (by decide), hapart _ (by decide)⟩

theorem houses_far : (nested (letters maxName) 15).Houses farHome ⟨.none, []⟩
    (List.replicate 15 (letters maxName)) := by
  refine ⟨?_, node?_nested_replicate (Nat.le_refl 15)⟩
  have hdescends : (nested (letters maxName) 15).Descends (List.replicate 15 (letters maxName)) :=
    descends_nested (isPlain_letters (by decide)).isOrdinary
      (by rw [size_letters]; exact Nat.lt_irrefl _)
  rw [find_eq_ok, reach, if_neg (by decide), Path.absolute, Path.join, List.append_nil]
  exact walk_of_descends [] hdescends

theorem toString_single (name : String) : (Path.mk .none [name]).toString = name :=
  String.ofList_toList

theorem fits_letters : Fits ⟨.none, []⟩ (letters maxName) := by
  rw [Fits, Path.div_component (isPlain_letters (by decide)).isComponent, List.nil_append,
    toString_single, size_letters]
  decide

theorem size_pair (name name' : String) : Text.Utf8.size (Path.mk .none [name, name']).toString =
    Text.Utf8.size name + (Text.Utf8.size name' + 1) := by
  have hslash : (Text.Utf8.encodeChar '/').length = 1 := rfl
  have hchars : (Path.mk .none [name, name']).chars = name.toList ++ '/' :: name'.toList := rfl
  rw [size_toList, Path.toString, String.toList_ofList, hchars, Text.Utf8.encode,
    List.flatMap_append, List.flatMap_cons, List.length_append, List.length_append, hslash,
    Nat.add_comm 1]
  rfl

theorem fits_far : Fits farRequests.dir (farRequests.part ()) := by
  have hpart : Path.IsComponent ".0.png.part" := ⟨by decide, by decide, by decide⟩
  have hpath : farRequests.dir / ".0.png.part" = ⟨.none, [letters maxName, ".0.png.part"]⟩ :=
    Path.div_component hpart farRequests.dir
  rw [Fits, farPart, hpath, size_pair, size_letters]
  decide

theorem maxPath_le_far : maxPath ≤ Text.Utf8.size
    (canonical (List.replicate 16 (letters maxName)) (farRequests.name ())).toString := by
  rw [size_nested (letters maxName) (farRequests.name ()) 15, size_letters]
  exact Nat.le_trans (by decide) (Nat.le_add_right _ _)

/-- The size of a blob is not told when its directory is so deep that the canonical path of the blob
is too long, though the path in use is not. -/
theorem sizeOf_far : (nested (letters maxName) 15).IsProper ∧ IsClean farHome farRequests.dir ∧
    farRequests.IsFresh farHome (nested (letters maxName) 15) ∧
    ∃ st : Store Unit, Relation.ReflTransGen (Moves farRequests farHome)
        (opened (nested (letters maxName) 15)) st ∧ st.stages () = .stored ∧
      ∃ f, ∀ r : Run World, r.state.files = st.files → r.state.cwd = farHome →
        (Directory.sizeOf ⟨farRequests.dir⟩ (farRequests.locator ())).exec r = (.error f, r) := by
  have hplain : IsPlain (letters maxName) := isPlain_letters (by decide)
  have hdir : farRequests.dir = (⟨.none, []⟩ : Path) / letters maxName :=
    (Path.div_component hplain.isComponent ⟨.none, []⟩).symm
  have hnone : (nested (letters maxName) 15).node?
      (List.replicate 15 (letters maxName) ++ [letters maxName]) = none := by
    cases he : (nested (letters maxName) 15).node?
        (List.replicate 15 (letters maxName) ++ [letters maxName]) with
    | none => rfl
    | some e =>
        obtain ⟨-, k, hk, heq⟩ := eq_of_node?_nested he
        have hlength := congrArg List.length heq
        rw [List.length_append, List.length_replicate, List.length_replicate] at hlength
        exact absurd hk (by rw [← hlength]; decide)
  have hensure : ((nested (letters maxName) 15).ensureDir farHome farRequests.dir).2 = none := by
    have hclean := isClean_far.parent
    rw [hdir, houses_far.ensureDir_absent hclean hplain fits_letters hnone]
  have hopened := sound_opened farRequests farHome (nested (letters maxName) 15)
  have hstored := stored_of_run 0 (i := ()) isClean_far isFresh_far hopened rfl hensure
    fits_far
  obtain ⟨fs', g', hrun, -, hruns⟩ := runs_of_run 0 undisturbed (i := ())
    isClean_far isFresh_far Storing.stages hopened (Nat.le_refl 4)
  rw [hrun] at hstored
  change g' = .stored at hstored
  subst hstored
  have hstage := stages_after_self (opened (nested (letters maxName) 15)) () fs' .stored
  have hsound := sound_of_runs isClean_far isFresh_far hruns
  obtain ⟨directory, hfind, hsizeOf⟩ :=
    (hsound.readsBack isProper_nested isClean_far isFresh_far hstage).sizeOf
  -- The call has made the directory itself, so it is the sixteenth of the nested ones.
  have hdirectory : directory = List.replicate 16 (letters maxName) := by
    have hfares := hsound.fares ()
    rw [hstage] at hfares
    obtain ⟨directory', hhouses⟩ := hfares.houses trivial
    obtain rfl := Except.ok.inj (hfind.symm.trans hhouses.find)
    refine (houses_far.keep hsound.grows.keepsWays).unique_div hplain fits_letters
      (fun text he => ?_) (hdir ▸ hhouses)
    rw [hsound.grows.link_iff, hnone] at he
    cases he
  refine ⟨isProper_nested, isClean_far, isFresh_far, _, hruns, hstage, Errno.nameTooLong.failure
    (canonical directory (farRequests.name ())), fun r hfiles hcwd => ?_⟩
  rw [hsizeOf r hfiles hcwd, if_pos (hdirectory ▸ maxPath_le_far)]

end Far

end Store

end Blob

end MediaCatalog
