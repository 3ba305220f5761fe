import MediaCatalog.Blob.Persist
import MediaCatalog.Collaborators
import MediaCatalog.World

namespace MediaCatalog.Blob

open World

structure Directory where
  path : Path
  deriving DecidableEq, Repr

namespace Directory

/-- Where a name leads, unless it is empty or leads out of the directory. -/
def pathFor (d : Directory) (name : String) : Doing (Option Path) := do
  let target := d.path / name
  if name = "" then return none
  else match ← relativeUnder d.path target with
    | none => return none
    | some _ => return some (← resolve target)

def persistWith (d : Directory) (faults : Stage → Option Fault) (data : List UInt8)
    (mime : String) : Doing String := do
  let name := nameFor (← freshName) mime
  let w ← Act.getState
  let (files, s) := Storing.run w.cwd w.clock faults Storing.stages w.files
    ⟨d.path, name, data, .makeDirectory⟩
  Act.setState { w with files, clock := w.clock + 1 }
  match s.stage with
  | .failed f => Act.fail f
  | _ =>
    Act.log ⟨Log.debug, "mediashelf.blobs", "persisted %d bytes as %s",
      [.int data.length, .text name], none⟩
    return Locator.ofBlob name

def persist (d : Directory) (data : List UInt8) (mime : String) : Doing String :=
  d.persistWith (fun _ => none) data mime

def sizeOf (d : Directory) (locator : String) : Doing (Option Int) := do
  match ← d.pathFor (Locator.blobName locator) with
  | none => return none
  | some p =>
    if ← isFile p then
      match ← stat p with
      | .file content _ => return some content.size
      | _ => return none
    else return none

def store (d : Directory) : BlobStore World := ⟨d.persist⟩

def authority (d : Directory) : Authority World where
  isLocal locator := return Locator.isBlob locator
  sizeOf := d.sizeOf

end Directory

end MediaCatalog.Blob
