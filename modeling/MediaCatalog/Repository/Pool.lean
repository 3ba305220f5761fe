import MediaCatalog.Repository.Job

namespace MediaCatalog

variable {σ α : Type}

inductive Progress (α : Type) where
  | waiting
  | taken
  | worked (a : α)
  | told (a : α)
  | done (a : α)
  deriving DecidableEq, Repr

namespace Progress

def isWaiting : Progress α → Bool
  | .waiting => true
  | _ => false

def isDone : Progress α → Bool
  | .done _ => true
  | _ => false

def isActive : Progress α → Bool
  | .taken | .worked _ | .told _ => true
  | _ => false

def result? : Progress α → Option α
  | .done a => some a
  | _ => none

end Progress

structure Entrusted (σ α : Type) where
  job : Job σ α
  progress : Progress α := .waiting

/-- A closed pool takes no new jobs and finishes those that it has. -/
structure Pool (σ α : Type) where
  workers : Nat
  isOpen : Bool := true
  jobs : List (Entrusted σ α) := []

namespace Pool

def closedToNew : Failure := ⟨.runtime, "cannot schedule new futures after shutdown", []⟩

/-- The pool with one more job, and the ticket under which its result can be asked for. -/
def submit (p : Pool σ α) (j : Job σ α) : Except Failure (Nat × Pool σ α) :=
  if p.isOpen then .ok (p.jobs.length, { p with jobs := p.jobs ++ [⟨j, .waiting⟩] })
  else .error closedToNew

def close (p : Pool σ α) : Pool σ α := { p with isOpen := false }

def result? (p : Pool σ α) (ticket : Nat) : Option α :=
  (p.jobs[ticket]?).bind (·.progress.result?)

def isSettled (p : Pool σ α) : Bool := p.jobs.all (·.progress.isDone)

def active (p : Pool σ α) : Nat := p.jobs.countP (·.progress.isActive)

def isNext (p : Pool σ α) (ticket : Nat) : Bool :=
  decide (p.active < p.workers) && (p.jobs.take ticket).all (!·.progress.isWaiting)

def setProgress (p : Pool σ α) (ticket : Nat) (g : Progress α) : Pool σ α :=
  { p with jobs := p.jobs.modify ticket fun e => { e with progress := g } }

def advance (p : Pool σ α) (ticket : Nat) : Act σ (Pool σ α) :=
  match p.jobs[ticket]? with
  | none => return p
  | some e =>
    match e.progress with
    | .waiting => return if p.isNext ticket then p.setProgress ticket .taken else p
    | .taken => do return p.setProgress ticket (.worked (← e.job.result))
    | .worked a => do
      e.job.tell a
      return p.setProgress ticket (.told a)
    | .told a => return p.setProgress ticket (.done a)
    | .done _ => return p

def stepsPerJob : Nat := 4

/-- Brings a job to its end when no other one is at work. -/
def finish (p : Pool σ α) (ticket : Nat) : Act σ (Pool σ α) :=
  (List.replicate stepsPerJob ticket).foldlM advance p

def call (p : Pool σ α) (j : Job σ α) : Act σ (α × Pool σ α) := do
  let (ticket, p) ← Act.ofExcept (p.submit j)
  let p ← p.finish ticket
  return ((p.result? ticket).getD j.fallback, p)

end Pool

end MediaCatalog
