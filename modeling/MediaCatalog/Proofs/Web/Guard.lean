import MediaCatalog.Proofs.FileSystem.Resolve
import MediaCatalog.Proofs.Web.Handling

namespace MediaCatalog.Web

open Handling

/-- The verdict on a path that a request names: the file that it stands for, or a refusal. -/
def verdict (w : World) (base target : Path) : Except Failure (Except Refusal Path) := do
  let file ← w.files.resolve w.cwd target
  match ← w.files.relativeUnder w.cwd base file with
  | none => return .error .forbiddenPath
  | some _ => return if ← w.files.isFile w.cwd file then .ok file else .error .noFile

theorem exec_checkedFile (base target : Path) (r : Run World) :
    (checkedFile base target).exec r = (verdict r.state base target, r) := by
  rw [checkedFile, verdict, exec_bind, liftM_eq_work, exec_work, World.exec_resolve]
  rcases r.state.files.resolve r.state.cwd target with f | file
  · rfl
  dsimp only [bind, Except.bind]
  change (work (World.relativeUnder base file) >>= _).exec r = _
  rw [exec_bind, exec_work, World.exec_relativeUnder]
  rcases r.state.files.relativeUnder r.state.cwd base file with f | rel
  · rfl
  cases rel with
  | none => rfl
  | some rel =>
      dsimp only [Option.isNone_some]
      change (work (World.isFile file) >>= _).exec r = _
      rw [exec_bind, exec_work, World.exec_isFile]
      rcases r.state.files.isFile r.state.cwd file with f | there
      · rfl
      · cases there <;> rfl

/-- The verdict when nothing raises an error. The file is resolved once more before it is compared
with the directory. -/
theorem verdict_eq {w : World} {base target file again directory : Path} {isFile : Bool}
    (hfile : w.files.resolve w.cwd target = .ok file)
    (hagain : w.files.resolve w.cwd file = .ok again)
    (hbase : w.files.resolve w.cwd base = .ok directory)
    (hisFile : w.files.isFile w.cwd file = .ok isFile) :
    verdict w base target = .ok (if (again.relativeTo? directory).isSome then
      if isFile then .ok file else .error .noFile else .error .forbiddenPath) := by
  rw [verdict, hfile]
  dsimp only [bind, Except.bind]
  rw [FileSystem.relativeUnder_eq hagain hbase]
  cases again.relativeTo? directory with
  | none => rfl
  | some rel =>
      dsimp only
      rw [hisFile]
      rfl

inductive Judged (w : World) (base target : Path) : Except Failure (Except Refusal Path) → Prop
  | failed (f : Failure) : Judged w base target (.error f)
  | outside {file : Path} : w.files.resolve w.cwd target = .ok file →
      w.files.relativeUnder w.cwd base file = .ok none →
      Judged w base target (.ok (.error .forbiddenPath))
  | absent {file rel : Path} : w.files.resolve w.cwd target = .ok file →
      w.files.relativeUnder w.cwd base file = .ok (some rel) →
      w.files.isFile w.cwd file = .ok false → Judged w base target (.ok (.error .noFile))
  | passed {file rel : Path} : w.files.resolve w.cwd target = .ok file →
      w.files.relativeUnder w.cwd base file = .ok (some rel) →
      w.files.isFile w.cwd file = .ok true → Judged w base target (.ok (.ok file))

theorem judged_verdict (w : World) (base target : Path) :
    Judged w base target (verdict w base target) := by
  rw [verdict]
  rcases hresolve : w.files.resolve w.cwd target with f | file
  · exact .failed f
  dsimp only [bind, Except.bind]
  rcases hinside : w.files.relativeUnder w.cwd base file with f | _ | rel
  · exact .failed f
  · exact .outside hresolve hinside
  dsimp only
  rcases hfile : w.files.isFile w.cwd file with f | _ | _
  · exact .failed f
  · exact .absent hresolve hinside hfile
  · exact .passed hresolve hinside hfile

theorem confines_of_verdict {w : World} {base target file : Path}
    (h : verdict w base target = .ok (.ok file)) :
    w.files.resolve w.cwd target = .ok file ∧
      ∃ place, w.files.Confines w.cwd base file place := by
  have hjudged := h ▸ judged_verdict w base target
  cases hjudged with
  | passed hresolve hinside hfile => exact ⟨hresolve, FileSystem.exists_confines hinside hfile⟩

end MediaCatalog.Web
