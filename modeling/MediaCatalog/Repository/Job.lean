import MediaCatalog.Act

namespace MediaCatalog

variable {σ α : Type}

/-- When the work fails, the fallback takes its place. The callback is told the result before anyone
else, and it makes no difference whether it fails. -/
structure Job (σ α : Type) where
  name : String
  work : Act σ α
  fallback : α
  callback : Option (α → Act σ Unit) := none

namespace Job

def logger : String := "mediashelf.repository"

def logFailure (template name : String) (f : Failure) : Act σ Unit :=
  Act.log ⟨Log.error, logger, template, [.text name], some f⟩

def result (j : Job σ α) : Act σ α := do
  match ← Act.attempt j.work with
  | .ok a => return a
  | .error f =>
    logFailure "%s failed; completing with fallback result" j.name f
    return j.fallback

def tell (j : Job σ α) (a : α) : Act σ Unit :=
  match j.callback with
  | none => return ()
  | some callback => do
    match ← Act.attempt (callback a) with
    | .ok () => return ()
    | .error f => logFailure "%s callback raised" j.name f

end Job

end MediaCatalog
