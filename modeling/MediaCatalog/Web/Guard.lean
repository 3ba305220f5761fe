import MediaCatalog.Locator
import MediaCatalog.Settings
import MediaCatalog.Web.Message

namespace MediaCatalog.Web

open World

/-- Work on a request: it may be refused, and it may fail. -/
abbrev Handling := ExceptT Refusal Doing

def refuse {α : Type} (r : Refusal) : Handling α := throw r

def work {α : Type} (act : Doing α) : Handling α := ExceptT.lift act

/-- The canonical path of a regular file inside the base. -/
def checkedFile (base target : Path) : Handling Path := do
  let file ← resolve target
  if (← relativeUnder base file).isNone then refuse .forbiddenPath
  else if !(← isFile file) then refuse .noFile
  else return file

def firstAround (p : Path) : List Path → Doing (Option Path)
  | [] => return none
  | base :: rest => do
    if (← relativeUnder base p).isSome then return some base else firstAround p rest

def editSource (s : Settings) (location : String) : Handling Path := do
  let p ← work (Act.ofExcept (Locator.toPath (some s.blobDir) location))
  match ← firstAround p [s.mediaRoot, s.blobDir] with
  | some base => checkedFile base p
  | none => refuse (.cannotEdit location)

end MediaCatalog.Web
