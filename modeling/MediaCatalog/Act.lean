import MediaCatalog.Log.Record

namespace MediaCatalog

structure Run (σ : Type) where
  state : σ
  log : List Log.Record

/-- What was changed and logged before a failure stays. -/
abbrev Act (σ : Type) := ExceptT Failure (StateM (Run σ))

namespace Act

variable {σ α : Type}

def getState : Act σ σ := do return (← get).state

def setState (s : σ) : Act σ Unit := modify fun r => { r with state := s }

def modifyState (f : σ → σ) : Act σ Unit := modify fun r => { r with state := f r.state }

def fail (f : Failure) : Act σ α := throw f

def ofExcept : Except Failure α → Act σ α
  | .ok a => pure a
  | .error f => fail f

def log (r : Log.Record) : Act σ Unit := modify fun s => { s with log := s.log ++ [r] }

/-- The outcome as a value; effects stay. -/
def attempt (act : Act σ α) : Act σ (Except Failure α) := fun r =>
  let (out, r) := act.run r
  (.ok out, r)

/-- Handles the failures that `covers` accepts, and lets others pass. -/
def recover (act : Act σ α) (covers : Failure → Bool) (handler : Failure → Act σ α) :
    Act σ α := do
  match ← attempt act with
  | .ok a => return a
  | .error f => if covers f then handler f else fail f

def ensuring (act : Act σ α) (last : Act σ Unit) : Act σ α := do
  let out ← attempt act
  last
  ofExcept out

def start (act : Act σ α) (s : σ) : Except Failure α × Run σ := act.run ⟨s, []⟩

end Act

end MediaCatalog
